import Statechart.Proofs.Value.Parts

/-!
# Values whose copies show themselves alike

A copy is a new thing, so it has another address. `steady` values are those in which no record holds
anything that shows its address: what their records hold looks the same each time it is copied.
-/

namespace Statechart

/-- Objects of a class show themselves alike when what they show of address and attributes is the
same. -/
theorem ObjectClass.text_congr {kind : ObjectClass} {a a' b b' : String}
    (haddress : kind.showsAddress = true → a = a')
    (hattributes : kind.showsAttributes = true → b = b') : kind.text a b = kind.text a' b' := by
  have hfeature : ∀ f ∈ kind.look, f.text a b = f.text a' b' := by
    intro f hf
    cases f with
    | words s => rfl
    | address => exact haddress (by simpa [ObjectClass.showsAddress] using hf)
    | attributes => exact hattributes (by simpa [ObjectClass.showsAttributes] using hf)
  rw [ObjectClass.text, ObjectClass.text, List.map_congr_left hfeature]

namespace Value

mutual

/-- Whether the text that stands for a value shows no address. -/
def addressless : Value → Bool
  | .list _ xs => allAddressless xs
  | .tuple xs => allAddressless xs
  | .set _ xs => allAddressless xs
  | .frozenSet xs => allAddressless xs
  | .dict _ es => entriesAddressless es
  | .view es => entriesAddressless es
  | .record _ fields => fieldsAddressless fields
  | .named name params => addressless name && addressless params
  | .embedded factory name => addressless factory && addressless name
  | .result u o => addressless u && addressless o
  | .state value configuration actions _ =>
      addressless value && addressless configuration && addressless actions
  | .object _ kind own _ =>
      !kind.showsAddress && (!kind.showsAttributes || fieldsAddressless own)
  | _ => true

/-- Whether the texts of the values of a list show no address. -/
def allAddressless : List Value → Bool
  | [] => true
  | x :: xs => addressless x && allAddressless xs

/-- Whether the texts of entries show no address. -/
def entriesAddressless : List (Value × Value) → Bool
  | [] => true
  | (k, v) :: es => addressless k && addressless v && entriesAddressless es

/-- Whether the texts of fields show no address. -/
def fieldsAddressless : List (String × Value) → Bool
  | [] => true
  | (_, v) :: fs => addressless v && fieldsAddressless fs

end

mutual

/-- Whether no record in a value holds anything that shows its address. -/
def steady : Value → Bool
  | .list _ xs => allSteady xs
  | .tuple xs => allSteady xs
  | .set _ xs => allSteady xs
  | .frozenSet xs => allSteady xs
  | .dict _ es => entriesSteady es
  | .result u o => steady u && steady o
  | .record name fields => addressless (.record name fields)
  | .named name params => addressless (.named name params)
  | .embedded factory name => addressless (.embedded factory name)
  | .state value configuration actions changed =>
      addressless (.state value configuration actions changed)
  | _ => true

/-- Whether all values of a list are steady. -/
def allSteady : List Value → Bool
  | [] => true
  | x :: xs => steady x && allSteady xs

/-- Whether all values of a table are steady. -/
def entriesSteady : List (Value × Value) → Bool
  | [] => true
  | (_, v) :: es => steady v && entriesSteady es

end

theorem all_addressless_eq (xs : List Value) : allAddressless xs = xs.all addressless := by
  induction xs with
  | nil => rfl
  | cons x xs ih => simp [allAddressless, ih]

theorem entries_addressless_eq (es : List (Value × Value)) : entriesAddressless es =
    es.all fun e => e.1.addressless && e.2.addressless := by
  induction es with
  | nil => rfl
  | cons e es ih => simp [entriesAddressless, ih]

theorem fields_addressless_eq (fs : List (String × Value)) :
    fieldsAddressless fs = fs.all fun f => f.2.addressless := by
  induction fs with
  | nil => rfl
  | cons f fs ih => simp [fieldsAddressless, ih]

theorem all_steady_eq (xs : List Value) : allSteady xs = xs.all steady := by
  induction xs with
  | nil => rfl
  | cons x xs ih => simp [allSteady, ih]

theorem entries_steady_eq (es : List (Value × Value)) :
    entriesSteady es = es.all fun e => e.2.steady := by
  induction es with
  | nil => rfl
  | cons e es ih => simp [entriesSteady, ih]

section Shapes

variable {v : Value} {xs : List Value} {fs : List (String × Value)}

theorem Sequence.addressless_eq (h : Sequence v xs) : v.addressless = xs.all addressless := by
  rw [← all_addressless_eq]
  cases h with
  | result u o => simp [addressless, allAddressless]
  | _ => rfl

theorem Sequence.steady_eq (h : Sequence v xs) : v.steady = xs.all steady := by
  rw [← all_steady_eq]
  cases h with
  | result u o => simp [steady, allSteady]
  | _ => rfl

theorem Gathering.addressless_eq (h : Gathering v xs) : v.addressless = xs.all addressless := by
  rw [← all_addressless_eq]
  cases h <;> rfl

theorem Gathering.steady_eq (h : Gathering v xs) : v.steady = xs.all steady := by
  rw [← all_steady_eq]
  cases h <;> rfl

theorem Filed.addressless_eq (h : Filed v fs) :
    v.addressless = fs.all fun f => f.2.addressless := by
  rw [← fields_addressless_eq]
  cases h with
  | record => rfl
  | _ => simp [addressless, fieldsAddressless, Bool.and_assoc]

/-- A record is steady when nothing that it holds shows an address. -/
theorem Filed.steady_eq (h : Filed v fs) : v.steady = v.addressless := by
  cases h <;> rw [steady]

theorem steady_of_plain (h : v.isPlain = true) : v.steady = true := by
  cases v with
  | list | tuple | set | frozenSet | dict | record | named | embedded | result | state => cases h
  | _ => rfl

end Shapes

end Value

end Statechart
