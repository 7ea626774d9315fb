import SmoloKellner.Swift.Dictionary
import SmoloKellner.Swift.Machine
import SmoloKellner.Firebase.DataSnapshot
import SmoloKellner.Firebase.Client
import SmoloKellner.Models
import SmoloKellner.Loader.Decode
import SmoloKellner.Loader.ExtrasMachine
import SmoloKellner.Loader.ItemMachine
import SmoloKellner.Loader.ItemOrder
import SmoloKellner.Swift.GridRel
import SmoloKellner.Swift.Shape
import SmoloKellner.Loader.Refinement
import SmoloKellner.Loader.Frame
import SmoloKellner.Loader.ExtrasPairing
import SmoloKellner.Loader.Supported
import SmoloKellner.Controller.Liste
import SmoloKellner.Controller.Invariant
import SmoloKellner.Controller.Publish
import SmoloKellner.Controller.Copies
import SmoloKellner.Controller.Refresh
import SmoloKellner.Controller.Extras
import SmoloKellner.Controller.Gesamtpreis
import SmoloKellner.Controller.Fertiggestellt
import SmoloKellner.Controller.Status
import SmoloKellner.Controller.Abrechnung
import SmoloKellner.Controller.Rechnungen
import SmoloKellner.Controller.Umbuchung
import SmoloKellner.Controller.StatusCopies
import SmoloKellner.Loader.Faithful
import SmoloKellner.Loader.Locality
import SmoloKellner.Loader.Loadable
import SmoloKellner.Loader.Traceless
import SmoloKellner.Controller.Summen
import SmoloKellner.Controller.Passwort
import SmoloKellner.Controller.Filter
import SmoloKellner.Controller.Produkte
import SmoloKellner.Controller.Verfuegbarkeit
import SmoloKellner.Controller.Bezahlen
import SmoloKellner.Controller.Korb
import SmoloKellner.Controller.Aufteilung
import SmoloKellner.Controller.Aktualisierung
import SmoloKellner.Controller.Zellen
import SmoloKellner.Controller.Darstellung
import SmoloKellner.Controller.Aktionen
import SmoloKellner.Controller.Beeinflussung
import SmoloKellner.Loader.ExtrasCounts
import SmoloKellner.Controller.Zusammenfuehrung
import SmoloKellner.Controller.Tischdialog
import SmoloKellner.Controller.Problembericht
import SmoloKellner.Controller.Suche
import SmoloKellner.Controller.FilterStart
import SmoloKellner.Controller.Menu
import SmoloKellner.Controller.MenuCopies
import SmoloKellner.Controller.Ampel
import SmoloKellner.Controller.Ziehharmonika
import SmoloKellner.Controller.FilterZellen
import SmoloKellner.Loader.ExtrasLeaks
import SmoloKellner.Loader.ExtrasReload
import SmoloKellner.Controller.Anmeldung
import SmoloKellner.Controller.Ampelanlage
import SmoloKellner.Swift.Simulation
import SmoloKellner.Controller.Bestellweg
import SmoloKellner.Controller.Verbund
import SmoloKellner.Firebase.KeyEnumerators
import SmoloKellner.Firebase.FNextPushId
import SmoloKellner.Firebase.FIRDataSnapshot
import SmoloKellner.Firebase.IsEqual
import SmoloKellner.Firebase.Delivery
