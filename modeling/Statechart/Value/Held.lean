import Statechart.Value.Basic

/-!
# What records hold

A record is turned into a table of copies: containers are built anew, and whatever else it holds is
deep-copied where it stands. A copy shows what its original shows except for addresses, since the
things in it are new ones. `Value.renewed` puts such copies in place of all that records hold; which
identities they get is up to `Copies`, so nothing here depends on it.
-/

namespace Statechart

/-- The identities that the copies made by a call get. The copies are told apart by where they
stand, so that each of them has identities of its own. -/
def Copies :=
  List Bool → Identity → Identity

namespace Copies

/-- The identities of the copies in the first of several places. -/
def first (c : Copies) : Copies :=
  fun place => c (false :: place)

/-- The identities of the copies in all places after the first. -/
def rest (c : Copies) : Copies :=
  fun place => c (true :: place)

/-- The identities of the things in a copy. -/
def here (c : Copies) : Identity → Identity :=
  c []

/-- Copies that have the identities of what they are copies of. -/
def same : Copies :=
  fun _ i => i

end Copies

namespace Value

mutual

/-- A deep copy whose things have the identities that are given in place of theirs. What a class or
a callable holds is not copied. -/
def renamed (g : Identity → Identity) : Value → Value
  | .list m xs => .list (m.map g) (renamedList g xs)
  | .tuple xs => .tuple (renamedList g xs)
  | .set m xs => .set (m.map g) (renamedList g xs)
  | .frozenSet xs => .frozenSet (renamedList g xs)
  | .dict m es => .dict (m.map g) (renamedEntries g es)
  | .view es => .view (renamedEntries g es)
  | .record name fields => .record name (renamedFields g fields)
  | .named name params => .named (renamed g name) (renamed g params)
  | .embedded factory name => .embedded (renamed g factory) (renamed g name)
  | .result u o => .result (renamed g u) (renamed g o)
  | .state value configuration actions changed =>
      .state (renamed g value) (renamed g configuration) (renamed g actions) changed
  | .object m kind own shared => .object (m.map g) kind (renamedFields g own) shared
  | v => v

/-- Deep copies of the values of a list. -/
def renamedList (g : Identity → Identity) : List Value → List Value
  | [] => []
  | x :: xs => renamed g x :: renamedList g xs

/-- Deep copies of the entries of a table. -/
def renamedEntries (g : Identity → Identity) : List (Value × Value) → List (Value × Value)
  | [] => []
  | (k, v) :: es => (renamed g k, renamed g v) :: renamedEntries g es

/-- Deep copies of fields. -/
def renamedFields (g : Identity → Identity) : List (String × Value) → List (String × Value)
  | [] => []
  | (n, v) :: fs => (n, renamed g v) :: renamedFields g fs

end

mutual

/-- A value with copies in place of what the records in it hold. The keys of a table and the values
behind a view are not looked into. -/
def renewed (c : Copies) : Value → Value
  | .list m xs => .list m (renewedList c xs)
  | .tuple xs => .tuple (renewedList c xs)
  | .set m xs => .set m (renewedList c xs)
  | .frozenSet xs => .frozenSet (renewedList c xs)
  | .dict m es => .dict m (renewedEntries c es)
  | .record name fields => .record name (heldFields c fields)
  | .named name params => .named (held c.first name) (held c.rest.first params)
  | .embedded factory name => .embedded (held c.first factory) (held c.rest.first name)
  | .result u o => .result (renewed c.first u) (renewed c.rest.first o)
  | .state value configuration actions changed =>
      .state (held c.first value) (held c.rest.first configuration)
        (held c.rest.rest.first actions) changed
  | v => v

/-- The values of a list with copies in place of what the records in them hold. -/
def renewedList (c : Copies) : List Value → List Value
  | [] => []
  | x :: xs => renewed c.first x :: renewedList c.rest xs

/-- The entries of a table with copies in place of what the records in their values hold. -/
def renewedEntries (c : Copies) : List (Value × Value) → List (Value × Value)
  | [] => []
  | (k, v) :: es => (k, renewed c.first v) :: renewedEntries c.rest es

/-- What stands in a table for a value that a record holds: containers and records are built anew
from what stands for their members, and everything else is copied. A set is copied with its elements
first, but the records in it are turned into tables all the same. -/
def held (c : Copies) : Value → Value
  | .list m xs => .list m (heldList c xs)
  | .tuple xs => .tuple (heldList c xs)
  | .set m xs => .set (m.map c.here) (heldList c xs)
  | .frozenSet xs => .frozenSet (heldList c xs)
  | .dict m es => .dict m (heldEntries c es)
  | .record name fields => .record name (heldFields c fields)
  | .named name params => .named (held c.first name) (held c.rest.first params)
  | .embedded factory name => .embedded (held c.first factory) (held c.rest.first name)
  | .result u o => .result (held c.first u) (held c.rest.first o)
  | .state value configuration actions changed =>
      .state (held c.first value) (held c.rest.first configuration)
        (held c.rest.rest.first actions) changed
  | v => renamed c.here v

/-- What stands in a table for the values of a list. -/
def heldList (c : Copies) : List Value → List Value
  | [] => []
  | x :: xs => held c.first x :: heldList c.rest xs

/-- What stands in a table for the entries of a table. The keys are copied as they are, since none
of them may turn into a table. -/
def heldEntries (c : Copies) : List (Value × Value) → List (Value × Value)
  | [] => []
  | (k, v) :: es =>
      (renamed c.first.here k, held c.first.rest v) :: heldEntries c.rest es

/-- What stands in a table for the fields of a record. -/
def heldFields (c : Copies) : List (String × Value) → List (String × Value)
  | [] => []
  | (n, v) :: fs => (n, held c.first v) :: heldFields c.rest fs

end

end Value

end Statechart
