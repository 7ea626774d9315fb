import SmoloKellner.Firebase.FIRDatabaseReference
import SmoloKellner.Firebase.IsEqual
import SmoloKellner.Firebase.KeyEnumerators

/-!
# Snapshots of nodes

A callback is handed a `FIRDataSnapshot`: the key of a location and the node that the
cache has there.  `data` is the `DataSnapshot` that the app sees.  It has the children of
the node under distinct keys, and reading a child of it is reading the child of the node.
The children of a snapshot come in the order of the priority index, which is the order of
the data as long as no child has a priority.
-/

namespace SmoloKellner.Firebase

open Std Sorted Swift

namespace FNode

/-- The data of a node under a key. -/
def data (key : String) : FNode → DataSnapshot
  | leaf value _ => .leaf key value
  | children _ d => .node key (d.entries.attach.map fun p => data p.1.1 p.1.2)
decreasing_by
  have hlt := FImmutableSortedDictionary.sizeOf_lt_of_mem p.2
  rw [children.sizeOf_spec]
  omega

/-- The keys that `childEnumerator` goes through. -/
def childNames : FNode → KeyEnumerator String FNode
  | leaf _ _ => .array ⟨0, false, []⟩
  | children _ d => d.keyEnumerator compareNames

/-- The `i`-th object of the enumerator. -/
def nthChild (n : FNode) (i : Nat) : Option (String × FNode) :=
  (nthObject KeyEnumerator.nextObject i n.childNames).map fun k => (k, n.getImmediateChild k)

/-! ## The priority index -/

/-- The place of a value in `valueTypeOrder`. -/
def valueTypeOrder : Wert → Nat
  | .wahr _ => 1
  | .zahl _ => 2
  | .text _ => 3

/-- `compareToLeafNode:`, on the values of two leaves. -/
def compareLeaves : Wert → Wert → Ordering
  | .wahr b, .wahr b' => Ord.compare b.toNat b'.toNat
  | .zahl x, .zahl x' => if x < x' then .lt else if x' < x then .gt else .eq
  | .text s, .text s' => Ord.compare (units s) (units s')
  | v, v' => Ord.compare (valueTypeOrder v) (valueTypeOrder v')

/-- `compare:` of two nodes. -/
def compare (n m : FNode) : Ordering :=
  match n, m with
  | leaf value _, leaf value' _ => compareLeaves value value'
  | leaf _ _, children p d => if (children p d).isEmpty then .gt else .lt
  | children p d, m =>
      if (children p d).isEmpty then (if m.isEmpty then .eq else .lt)
      else if m.isLeafNode || m.isEmpty then .gt
      else .eq

end FNode

namespace FPriorityIndex

/-- `compareNamedNode:toNamedNode:`. -/
def compareNamedNode (p q : String × FNode) : Ordering :=
  match FNode.compare p.2.getPriority q.2.getPriority with
  | .eq => compareNames p.1 q.1
  | .lt => .lt
  | .gt => .gt

def isDefinedOn (n : FNode) : Bool := !n.getPriority.isEmpty

end FPriorityIndex

namespace FIndexedNode

/-- The `i`-th object of `childEnumerator`.  If a child has a priority, the set of the
children is built in the order of the index; `none` is its exception. -/
def nthChild (n : FNode) (i : Nat) : Option (Option (String × FNode)) :=
  if n.childEntries.any fun c => FPriorityIndex.isDefinedOn c.2 then do
    let indexed ← FImmutableSortedDictionary.fromDictionary FPriorityIndex.compareNamedNode
      (n.childEntries.map fun c => (c, ()))
    some (nthObject KeyEnumerator.nextObject i
      (indexed.keyEnumerator FPriorityIndex.compareNamedNode))
  else some (n.nthChild i)

end FIndexedNode

namespace FNode

end FNode

/-! ## Snapshots -/

structure FIRDataSnapshot where
  key : String
  node : FNode

namespace FIRDataSnapshot

def hasChild (s : FIRDataSnapshot) (childPathString : String) : Option Bool :=
  if FValidation.isValidPathString childPathString then
    some !(s.node.getChild (pathPieces childPathString)).isEmpty
  else none

def childrenCount (s : FIRDataSnapshot) : Nat := s.node.numChildren

/-- The `i`-th object of `children`. -/
def nthChild (s : FIRDataSnapshot) (i : Nat) : Option (Option FIRDataSnapshot) :=
  (FIndexedNode.nthChild s.node i).map (Option.map fun p => ⟨p.1, p.2⟩)

/-- What the app sees. -/
def data (s : FIRDataSnapshot) : DataSnapshot := s.node.data s.key

end FIRDataSnapshot

end SmoloKellner.Firebase
