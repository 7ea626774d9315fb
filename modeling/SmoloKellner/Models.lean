import SmoloKellner.Firebase.DataSnapshot
import SmoloKellner.Swift.Dictionary

/-!
# The app's data models

`BestellungInfos` reads one dictionary of the database with its defaults, and
`KellnerTVSection` and `BestellungFertig` are the sections the table views
show.  Swift's `Double` prices and time stamps are exact rationals.
-/

namespace SmoloKellner

open Firebase (DataSnapshot)
open Firebase.DataSnapshot (asString asDouble asInt)

/-- `BestellungInfos`: the fields of an order, an item or an extra.  Swift
declares them optional, but `init` always sets them, so that the app's
force-unwraps of these fields cannot fail. -/
structure BestellungInfos where
  itemName : String
  itemPreis : Rat
  itemMenge : Int
  itemKommentar : String
  itemLiter : String
  fromUserID : String
  toKellnerID : String
  timeStamp : Rat
  tischnummer : String
  status : String
  bestellungItemId : String
deriving DecidableEq, Repr

/-- `BestellungInfos.init(dictionary:)`. -/
def BestellungInfos.init (dictionary : List DataSnapshot) : BestellungInfos where
  itemName := (asString dictionary "Name").getD ""
  itemMenge := (asInt dictionary "Menge").getD 0
  itemPreis := (asDouble dictionary "Preis").getD 0
  itemKommentar := (asString dictionary "Kommentar").getD "kein Kommentar"
  itemLiter := (asString dictionary "Liter").getD "kein Liter"
  fromUserID := (asString dictionary "fromUserID").getD ""
  toKellnerID := (asString dictionary "toKellnerID").getD ""
  timeStamp := (asDouble dictionary "timeStamp").getD 0
  tischnummer := (asString dictionary "tischnummer").getD "leer"
  status := (asString dictionary "Status").getD "Fehler"
  bestellungItemId := (asString dictionary "bestellungItemId").getD "NoID"

/-- `KellnerTVSection`: one order as a section of a table view. -/
structure KellnerTVSection where
  bestellungID : String
  tischnummer : String
  fromUserID : String
  timeStamp : Rat
  kategorie : List String
  unterkategorie : List (List String)
  items : List (List (List String))
  preis : List (List (List Rat))
  liter : List (List (List String))
  extras : List (List (List (List String)))
  extrasPreis : List (List (List (List Rat)))
  kommentar : List (List (List String))
  menge : List (List (List Int))
  itemsID : List (List (List String))
  expanded2 : List (List Bool)
  expanded : Bool
deriving DecidableEq, Repr

/-- `BestellungFertig`: the finished orders of one table as a section, with the
item ids of each of these orders. -/
structure BestellungFertig where
  bestellungID : Swift.Dict (List String)
  tischnummer : String
  fromUserID : String
  kategorie : List String
  unterkategorie : List String
  items : List String
  preis : List Rat
  menge : List Int
  itemsID : List String
  bezahltMenge : Finmap fun _ : Int => List Int
  expanded : Bool
deriving DecidableEq

end SmoloKellner
