import Statechart.Host
import Statechart.Patch.Standard
import Statechart.Script.Basic
import Statechart.Value.Access
import Statechart.Value.Arithmetic

/-!
# Running scripts

`Script.host` is the host whose handles are programs of a list. Running a program always ends,
because expressions call nothing and statements do not repeat. What an expression makes is new and
gets its marks when it is stored in the draft or returned; an edit of a container shows in all
places of the draft where the container stands.
-/

namespace Statechart.Script

/-- What the expressions of a call can see. -/
structure Scope where
  args : List Value
  draft : Option Value

/-- A value that has to be there. -/
def require (v : Option Value) (e : Error) : Except Error Value :=
  match v with
  | some v => .ok v
  | none => .error e

mutual

/-- The value of an expression. -/
def Expr.eval (s : Scope) : Expr → Except Error Value
  | .lit v => .ok v
  | .arg i => require s.args[i]? (.fault .indexOutOfRange)
  | .draft => require s.draft (.fault .indexOutOfRange)
  | .recipe code => .ok (.callable none none code s.args)
  | .throw message => .error (.actionFailed message)
  | .dict es => do return .newTable (← evalEntries s [] es)
  | .ite c x y => do if (← c.eval s).truthy then x.eval s else y.eval s
  | .and x y => do
      let v ← x.eval s
      if v.truthy then y.eval s else .ok v
  | .or x y => do
      let v ← x.eval s
      if v.truthy then .ok v else y.eval s
  | .not x => do return .bool !(← x.eval s).truthy
  | .index x k => do
      let x ← x.eval s
      x.index (← k.eval s)
  | .get m k d => do
      let m ← m.eval s
      let k ← k.eval s
      m.getD k (← d.eval s)
  | .count x y => do
      let x ← x.eval s
      x.count (← y.eval s)
  | .length x => do
      match (← x.eval s).size? with
      | some n => .ok (.int n)
      | none => .error .wrongType
  | .eq x y => do
      let x ← x.eval s
      return .bool (x.eq (← y.eval s))
  | .less x y => do
      let x ← x.eval s
      return .bool (← x.less (← y.eval s))
  | .lessOrEqual x y => do
      let x ← x.eval s
      return .bool (← x.lessOrEqual (← y.eval s))
  | .add x y => do
      let x ← x.eval s
      x.add (← y.eval s)
  | .text x => do
      let v ← x.eval s
      if v.hasText then .ok (.text v.plainText) else .error (.fault .wrongLength)
  | .list xs => do return .newList (← evalList s xs)
  | .tuple xs => do return .tuple (← evalList s xs)
  | .result u o => do
      let u ← u.eval s
      return .result u (← o.eval s)
  | .kind d => do return .text (← d.eval s).typeName
  | .name d => do require ((← d.eval s).attribute? "name") .missingAttribute
  | .params d => do require ((← d.eval s).attribute? "params") .missingAttribute

/-- The values of expressions, from left to right. -/
def evalList (s : Scope) : List Expr → Except Error (List Value)
  | [] => .ok []
  | x :: xs => do
      let v ← x.eval s
      return v :: (← evalList s xs)

/-- The table with further entries, stored from left to right. -/
def evalEntries (s : Scope) (t : Table) : List (Value × Expr) → Except Error Table
  | [] => .ok t
  | (k, x) :: es => do
      let v ← x.eval s
      if k.hashable then evalEntries s (t.insert k v) es else .error .wrongType

end

/-- A deep copy of the value of an expression. -/
def copied (s : Scope) (x : Expr) : Making Value := do
  Making.copied (← x.eval s)

/-- The position in a list that a value gives. -/
def positionIn (xs : List Value) (k : Value) : Except Error Nat :=
  match k.integer? with
  | none => .error .wrongType
  | some i =>
      match Value.position? xs.length i with
      | some n => .ok n
      | none => .error (.fault .indexOutOfRange)

/-- Applies an edit to the container it is for, its operands being evaluated first. -/
def Edit.apply (s : Scope) (e : Edit) (node : Value) : Making Value := do
  match e with
  | .append x =>
      let x ← copied s x
      match node with
      | .list m xs => return .list m (xs ++ [x])
      | _ => throw .missingAttribute
  | .pop =>
      match node with
      | .list _ [] => throw (.fault .indexOutOfRange)
      | .list m xs => return .list m xs.dropLast
      | .set _ [] => throw .missingKey
      | .set m (_ :: xs) => return .set m xs
      | .dict .. => throw .wrongType
      | _ => throw .missingAttribute
  | .set k x =>
      let k ← copied s k
      let x ← copied s x
      match node with
      | .dict m es =>
          if k.hashable then return .dict m (Table.insert es k x) else throw .wrongType
      | .list m xs => return .list m (xs.set (← positionIn xs k) x)
      | _ => throw .wrongType
  | .delete k =>
      let k ← copied s k
      match node with
      | .dict m es => do
          let _ ← Value.atKey es k
          return .dict m (Table.erase es k)
      | .list m xs => return .list m (xs.eraseIdx (← positionIn xs k))
      | _ => throw .wrongType
  | .increment k =>
      let k ← copied s k
      let v ← Making.marked (← (← node.getD k (.int 0)).add (.int 1))
      match node with
      | .dict m es => return .dict m (Table.insert es k v)
      | _ => throw .wrongType

/-- The scope after the draft, which is also the first argument unless the program is nested, has
become the given value. -/
def Scope.withDraft (nested : Bool) (s : Scope) (draft : Value) : Scope :=
  ⟨if nested then s.args else draft :: s.args.drop 1, some draft⟩

/-- Runs statements one after the other. -/
def runBody (nested : Bool) : List Stmt → Scope → Making Scope
  | [], s => return s
  | stmt :: rest, s => do
      let draft ← require s.draft (.fault .indexOutOfRange)
      let node ← (stmt.path.foldlM Value.index draft : Except Error Value)
      let changed ← stmt.edit.apply s node
      runBody nested rest (s.withDraft nested (draft.edited node changed))

/-- Runs a program: the scope afterwards and the value returned. -/
def Program.run (p : Program) (captured args : List Value) : Making (Scope × Value) := do
  let s ← runBody p.nested p.body ⟨if p.nested then captured else args, args.head?⟩
  match p.value with
  | none => return (s, .null)
  | some x => return (s, ← Making.marked (← x.eval s))

/-- The host whose handles stand for the programs of a list. -/
def host (programs : List Program) : Host where
  call start code captured args :=
    match programs[code]? with
    | none => .error .wrongType
    | some p => do
        let (args, next) := (Value.markList args).run start
        return (← (p.run captured args).run' next).2
  edit start code captured draft :=
    match programs[code]? with
    | none => .error .wrongType
    | some p => do
        let (s, v) ← (p.run captured [draft]).run' start
        return (s.draft.getD draft, v)
  patches := .standard

end Statechart.Script
