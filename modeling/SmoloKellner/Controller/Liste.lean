import SmoloKellner.Firebase.Client
import SmoloKellner.Loader.Decode

/-!
# The three order lists

`KellnerVC`, `KellnerAngenommenVC` and `KellnerAlleBestellungenVC` show the
orders of a waiter.  They share their fields, the publish step of the fetch
callback and `reload`; they differ in the status they select and in whether
`loadBestellungen` empties the list before it fetches.
-/

namespace SmoloKellner

open Firebase Swift

/-- The state of an order list.  `tabelle` is what the table view shows: the
value `Bestellungen` had at the last `reloadData`. -/
structure Liste extends Lader where
  bestellungen : List KellnerTVSection
  bestellungIDs : List String
  tabelle : List KellnerTVSection

namespace Liste

/-- The fields as they are initialised. -/
def start : Liste where
  toLader := Lader.leer
  bestellungen := []
  bestellungIDs := []
  tabelle := []

/-- One iteration of the publish loop: `setSectionsKellnerBestellung`, and
`reloadData` when the list is complete. -/
def setSections (s : Liste) (id : String) : Option Liste := do
  let abschnitt ← s.section? id
  let s := { s with bestellungen := s.bestellungen ++ [abschnitt] }
  some (if s.bestellungen.length = s.bestellungIDs.length then
    { s with tabelle := s.bestellungen } else s)

/-- The publish step at the end of the fetch callback. -/
def veroeffentliche (s : Liste) : Option Liste :=
  if s.bestellungIDs.length = s.bestellungKategorien.count then
    s.bestellungIDs.foldlM setSections s
  else some s

/-- The callback of the fetch of order `id`. -/
def antwort (id : String) (snapshot : DataSnapshot) (s : Liste) :
    Option Liste := do
  let lader ← s.toLader.dekodiere id snapshot
  veroeffentliche { s with toLader := lader }

/-- The `childAdded` callback of `loadBestellungenKeys`: an order that passes
the controller's test is listed and `loadBestellungen` fetches it. -/
def loadBestellungenKeys (auswahl : BestellungInfos → Bool)
    (loadBestellungen : Liste → Liste) (snapshot : DataSnapshot) (s : Liste) :
    Liste × Option String :=
  match snapshot.asDictionary with
  | some dictionary =>
      if auswahl (BestellungInfos.init dictionary) then
        (loadBestellungen { s with bestellungIDs := s.bestellungIDs ++ [snapshot.key] },
          some snapshot.key)
      else (s, none)
  | none => (s, none)

/-- `reload()`, apart from the new observer. -/
def reload (s : Liste) : Liste where
  toLader := s.toLader.removeAll
  bestellungen := []
  bestellungIDs := []
  tabelle := []

/-- A list controller with its status test and its `loadBestellungen`. -/
def client (auswahl : BestellungInfos → Bool)
    (loadBestellungen : Liste → Liste) : Client Liste Unit where
  start := start
  childAdded := loadBestellungenKeys auswahl loadBestellungen
  antwort id snapshot _ := antwort id snapshot
  reload := reload

end Liste

namespace KellnerVC

def auswahl (bestellungInfos : BestellungInfos) : Bool :=
  bestellungInfos.status = "versendet"

/-- `Bestellungen.removeAll()` before the fetch. -/
def loadBestellungen (s : Liste) : Liste := { s with bestellungen := [] }

def client : Client Liste Unit := Liste.client auswahl loadBestellungen

end KellnerVC

namespace KellnerAngenommenVC

def auswahl (bestellungInfos : BestellungInfos) : Bool :=
  bestellungInfos.status = "angenommen"

/-- The list is not emptied before the fetch. -/
def loadBestellungen (s : Liste) : Liste := s

def client : Client Liste Unit := Liste.client auswahl loadBestellungen

end KellnerAngenommenVC

namespace KellnerAlleBestellungenVC

/-- Every order is listed. -/
def auswahl (_ : BestellungInfos) : Bool := true

/-- The list is not emptied before the fetch. -/
def loadBestellungen (s : Liste) : Liste := s

def client : Client Liste Unit := Liste.client auswahl loadBestellungen

end KellnerAlleBestellungenVC

end SmoloKellner
