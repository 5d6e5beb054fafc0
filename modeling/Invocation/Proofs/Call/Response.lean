import Invocation.Thunk

/-!
# What a call amounts to

The meaning of a call, said about the declared parameters and the values passed for them, without
plans, words or code. `Method.respond` counts the arguments, lets each parameter accept its value
as it is, and calls the native method once if none is refused. The refused argument is the one of
least index (`Args.accept_eq_error_iff`), and what the native method receives is the values
themselves (`Args.accept_eq_ok_iff`). `Thunk.Answers` is the contract of a compiled call, and
`Method.respond_answers` says that the response meets it.
-/

namespace Invocation

/-- An argument that is refused: its index, the type its parameter declares, and its value. -/
structure Refusal where
  index : Nat
  expected : ValueType
  actual : Value
  deriving DecidableEq

namespace ParamType

/-- A value of any other type than the declared one is refused; a reference refuses nothing. -/
def Refuses : ParamType → Value → Prop
  | .value type, v => v.type? ≠ some type
  | .reference, _ => False

/-- What a parameter receives is the value in its slot: the payload, bit for bit, or a reference to
the very slot and to what it holds. -/
def Receives (slot : Word) (v : Value) : (p : ParamType) → p.Arg → Prop
  | .value type, x => v = .inline type x
  | .reference, r => r = ⟨slot, v⟩

/-- What a parameter receives, or the type that the value should have been of. -/
def accept (slot : Word) (v : Value) : (p : ParamType) → Except ValueType p.Arg
  | .value type =>
    match v.payload? type with
    | some x => .ok x
    | none => .error type
  | .reference => .ok ⟨slot, v⟩

end ParamType

namespace Value

/-- A payload is what an inline value of the type consists of. -/
theorem payload?_eq_some_iff (type : ValueType) (v : Value) (x : type.Payload) :
    v.payload? type = some x ↔ v = .inline type x := by
  cases v with
  | null => simp [payload?]
  | object r => simp [payload?]
  | inline other y =>
    by_cases h : other = type
    · subst h
      simp [payload?_inline]
    · simp [payload?_inline_of_ne y h, h]

/-- There is no payload exactly if the value is not of the type. -/
theorem payload?_eq_none_iff (type : ValueType) (v : Value) :
    v.payload? type = none ↔ v.type? ≠ some type := by
  cases v with
  | null => simp [payload?, type?]
  | object r => simp [payload?, type?]
  | inline other y =>
    by_cases h : other = type
    · subst h
      simp [payload?_inline, type?]
    · simp [payload?_inline_of_ne y h, type?, h]

end Value

namespace ParamType

/-- A parameter accepts what it receives, and nothing else. -/
theorem accept_eq_ok_iff (slot : Word) (v : Value) (p : ParamType) (x : p.Arg) :
    p.accept slot v = .ok x ↔ p.Receives slot v x := by
  cases p with
  | reference => simp [accept, Receives, eq_comm]
  | value type =>
    have h := Value.payload?_eq_some_iff type v x
    cases hv : v.payload? type with
    | none => simpa [accept, Receives, hv] using h
    | some y => simpa [accept, Receives, hv] using h

/-- Nothing is received from a value that is refused. -/
theorem not_receives_of_refuses {slot : Word} {v : Value} {p : ParamType} {x : p.Arg}
    (h : p.Refuses v) : ¬ p.Receives slot v x := by
  cases p with
  | reference => exact h.elim
  | value type =>
    intro hx
    obtain rfl : v = .inline type x := hx
    exact h rfl

/-- A parameter reports its declared type, and only for a value that it refuses. -/
theorem accept_eq_error_iff (slot : Word) (v : Value) (p : ParamType) (type : ValueType) :
    p.accept slot v = .error type ↔ p = .value type ∧ p.Refuses v := by
  cases p with
  | reference => simp [accept]
  | value declared =>
    have h := Value.payload?_eq_none_iff declared v
    cases hv : v.payload? declared with
    | none =>
      rw [hv] at h
      simp [accept, hv, Refuses, h.mp rfl]
    | some y =>
      rw [hv] at h
      have hn : ¬ (ParamType.value declared).Refuses v := fun hr ↦ by cases h.mpr hr
      simp [accept, hv, hn]

/-- A parameter accepts every value that it does not refuse. -/
theorem exists_accept_eq_ok (slot : Word) {v : Value} {p : ParamType} (h : ¬ p.Refuses v) :
    ∃ x, p.accept slot v = .ok x := by
  cases ha : p.accept slot v with
  | ok x => exact ⟨x, rfl⟩
  | error type => exact absurd ((accept_eq_error_iff _ _ _ _).mp ha).2 h

end ParamType

namespace ArgSlice

/-- The value of the argument at an index; no argument is null. -/
def valueAt (s : ArgSlice) (index : Nat) : Value := s.values[index]?.getD .null

/-- The values are where the slots are. -/
theorem getElem?_values (s : ArgSlice) {index : Nat} (h : index < s.length) :
    s.values[index]? = some (s.valueAt index) := by
  simp only [length] at h
  simp [valueAt, h]

/-- An address inside a slot is that many bytes from the base. -/
theorem offset_slotAddress (s : ArgSlice) {index k : Nat} (h : index < s.length)
    (hk : k < slotSize) :
    (s.slotAddress index + BitVec.ofNat 64 k - s.base).toNat = index * slotSize + k := by
  have hf := s.fits
  simp only [slotSize, maxSliceBytes] at hf hk
  simp only [length] at h
  have hb : index * slotSize + k < 2 ^ 64 := by
    simp only [slotSize]
    omega
  rw [slotAddress, BitVec.add_assoc, BitVec.add_comm, BitVec.add_sub_cancel, ← BitVec.ofNat_add,
    BitVec.toNat_ofNat, Nat.mod_eq_of_lt hb]

/-- The value that starts at the address of a slot is the one in the slot. -/
theorem valueAt?_slotAddress (s : ArgSlice) {index : Nat} (h : index < s.length) :
    s.valueAt? (s.slotAddress index) = some (s.valueAt index) := by
  have ho := s.offset_slotAddress h (by decide : 0 < slotSize)
  rw [BitVec.add_zero, Nat.add_zero] at ho
  simp only [valueAt?, ho, Nat.mul_mod_left, Nat.mul_div_cancel _ (by decide : 0 < slotSize),
    if_true]
  exact s.getElem?_values h

end ArgSlice

namespace Args

/-- The argument for the parameter at an index. -/
def get : {ps : List ParamType} → Args ps → (i : Fin ps.length) → (ps.get i).Arg
  | _ :: _, (x, _), ⟨0, _⟩ => x
  | _ :: _, (_, rest), ⟨i + 1, h⟩ => get rest ⟨i, Nat.lt_of_succ_lt_succ h⟩

/-- What the parameters receive from the slots from an index on, or the first refusal. -/
def accept (slice : ArgSlice) : (index : Nat) → (ps : List ParamType) → Except Refusal (Args ps)
  | _, [] => .ok ()
  | index, p :: ps =>
    match p.accept (slice.slotAddress index) (slice.valueAt index) with
    | .error type => .error ⟨index, type, slice.valueAt index⟩
    | .ok x =>
      match accept slice (index + 1) ps with
      | .error refusal => .error refusal
      | .ok rest => .ok (x, rest)

/-- Arguments are accepted one by one. -/
theorem accept_cons_eq_ok_iff (slice : ArgSlice) (index : Nat) (p : ParamType)
    (ps : List ParamType) (x : p.Arg) (rest : Args ps) :
    accept slice index (p :: ps) = .ok (x, rest) ↔
      p.accept (slice.slotAddress index) (slice.valueAt index) = .ok x ∧
        accept slice (index + 1) ps = .ok rest := by
  rw [accept]
  cases p.accept (slice.slotAddress index) (slice.valueAt index) with
  | error type => simp
  | ok y => cases accept slice (index + 1) ps <;> simp

/-- A refusal is that of the first argument, or the first is accepted and it is one of the rest. -/
theorem accept_cons_eq_error_iff (slice : ArgSlice) (index : Nat) (p : ParamType)
    (ps : List ParamType) (r : Refusal) :
    accept slice index (p :: ps) = .error r ↔
      (∃ type, p.accept (slice.slotAddress index) (slice.valueAt index) = .error type ∧
        r = ⟨index, type, slice.valueAt index⟩) ∨
      (∃ x, p.accept (slice.slotAddress index) (slice.valueAt index) = .ok x) ∧
        accept slice (index + 1) ps = .error r := by
  rw [accept]
  cases p.accept (slice.slotAddress index) (slice.valueAt index) with
  | error type => simp [eq_comm]
  | ok y => cases accept slice (index + 1) ps <;> simp

/-- Each parameter receives the value of its own slot exactly if none is refused. -/
theorem accept_eq_ok_iff (slice : ArgSlice) (index : Nat) (ps : List ParamType) (xs : Args ps) :
    accept slice index ps = .ok xs ↔
      ∀ i : Fin ps.length, (ps.get i).Receives (slice.slotAddress (index + i))
        (slice.valueAt (index + i)) (xs.get i) := by
  induction ps generalizing index with
  | nil => exact ⟨fun _ i ↦ i.elim0, fun _ ↦ rfl⟩
  | cons p ps ih =>
    obtain ⟨x, rest⟩ := xs
    have hx := ParamType.accept_eq_ok_iff (slice.slotAddress index) (slice.valueAt index) p x
    have hr := ih (index + 1) rest
    have hs : (∀ i : Fin (p :: ps).length,
          ((p :: ps).get i).Receives (slice.slotAddress (index + i)) (slice.valueAt (index + i))
            (get ((x, rest) : Args (p :: ps)) i)) ↔
        p.Receives (slice.slotAddress index) (slice.valueAt index) x ∧
          ∀ i : Fin ps.length, (ps.get i).Receives (slice.slotAddress (index + 1 + i))
            (slice.valueAt (index + 1 + i)) (rest.get i) := by
      constructor
      · intro h
        refine ⟨h ⟨0, Nat.succ_pos _⟩, fun i ↦ ?_⟩
        rw [Nat.add_assoc, Nat.add_comm 1]
        exact h ⟨i + 1, Nat.succ_lt_succ i.isLt⟩
      · rintro ⟨hp, h⟩ ⟨i, hi⟩
        cases i with
        | zero => exact hp
        | succ i =>
          have hj := h ⟨i, Nat.lt_of_succ_lt_succ hi⟩
          rw [Nat.add_assoc, Nat.add_comm 1] at hj
          exact hj
    rw [hs, ← hx, ← hr, accept_cons_eq_ok_iff]

/-- A refusal is that of the least argument that its parameter refuses. -/
theorem accept_eq_error_iff (slice : ArgSlice) (index : Nat) (ps : List ParamType) (r : Refusal) :
    accept slice index ps = .error r ↔
      ∃ i : Fin ps.length, r = ⟨index + i, r.expected, slice.valueAt (index + i)⟩ ∧
        ps.get i = .value r.expected ∧ (ps.get i).Refuses (slice.valueAt (index + i)) ∧
        ∀ j < i, ¬ (ps.get j).Refuses (slice.valueAt (index + j)) := by
  induction ps generalizing index with
  | nil => simp [accept]
  | cons p ps ih =>
    have step (j : Nat) : index + 1 + j = index + (j + 1) := by omega
    rw [accept_cons_eq_error_iff, ih]
    constructor
    · rintro (⟨type, hp, rfl⟩ | ⟨⟨x, hp⟩, ⟨i, hi⟩, hr, ht, hw, hmin⟩)
      · obtain ⟨rfl, hv⟩ := (ParamType.accept_eq_error_iff _ _ _ _).mp hp
        exact ⟨⟨0, Nat.succ_pos _⟩, rfl, rfl, hv, fun j hj ↦ absurd hj (Nat.not_lt_zero _)⟩
      · rw [step] at hr hw
        refine ⟨⟨i + 1, Nat.succ_lt_succ hi⟩, hr, ht, hw, ?_⟩
        rintro ⟨j, hj⟩ hlt
        cases j with
        | zero =>
          have hx := (ParamType.accept_eq_ok_iff _ _ _ _).mp hp
          exact fun hv ↦ ParamType.not_receives_of_refuses hv hx
        | succ j =>
          have hm := hmin ⟨j, Nat.lt_of_succ_lt_succ hj⟩ (Nat.lt_of_succ_lt_succ hlt)
          rw [step] at hm
          exact hm
    · rintro ⟨⟨i, hi⟩, hr, ht, hw, hmin⟩
      cases i with
      | zero =>
        exact .inl ⟨r.expected, (ParamType.accept_eq_error_iff _ _ _ _).mpr ⟨ht, hw⟩, hr⟩
      | succ i =>
        refine .inr ⟨?_, ⟨i, Nat.lt_of_succ_lt_succ hi⟩, ?_, ht, ?_, fun j hj ↦ ?_⟩
        · exact ParamType.exists_accept_eq_ok _ (hmin ⟨0, Nat.succ_pos _⟩ (Nat.succ_pos i))
        · rw [step]; exact hr
        · rw [step]; exact hw
        · rw [step]; exact hmin ⟨j + 1, Nat.succ_lt_succ j.isLt⟩ (Nat.succ_lt_succ hj)

/-- A refusal is that of an argument for which there is a parameter, with the type that this declares
and with the value of the argument. -/
theorem of_accept_eq_error {slice : ArgSlice} {ps : List ParamType} {r : Refusal}
    (h : accept slice 0 ps = .error r) :
    ps[r.index]? = some (.value r.expected) ∧ slice.valueAt r.index = r.actual := by
  obtain ⟨i, hi, ht, -, -⟩ := (accept_eq_error_iff slice 0 ps r).mp h
  have hindex : r.index = i := by rw [hi, Nat.zero_add]
  refine ⟨?_, by rw [hi]⟩
  rw [hindex, List.getElem?_eq_getElem i.isLt]
  exact congrArg some ht

/-- A refusal is that of a value of another type than the declared one. -/
theorem type?_of_accept_eq_error {slice : ArgSlice} {ps : List ParamType} {r : Refusal}
    (h : accept slice 0 ps = .error r) : r.actual.type? ≠ some r.expected := by
  obtain ⟨i, hi, ht, hv, -⟩ := (accept_eq_error_iff slice 0 ps r).mp h
  rw [ht] at hv
  rw [hi]
  exact hv

/-- Every parameter receives its argument if none is refused. -/
theorem exists_accept_eq_ok (slice : ArgSlice) (index : Nat) (ps : List ParamType)
    (h : ∀ i : Fin ps.length, ¬ (ps.get i).Refuses (slice.valueAt (index + i))) :
    ∃ xs, accept slice index ps = .ok xs := by
  cases ha : accept slice index ps with
  | ok xs => exact ⟨xs, rfl⟩
  | error r =>
    obtain ⟨i, -, -, hv, -⟩ := (accept_eq_error_iff slice index ps r).mp ha
    exact absurd hv (h i)

end Args

/-- The value of a native result: null for none, else the payload or the object that it is. -/
def ReturnType.toValue : (ret : ReturnType) → ret.Result → Value
  | .void, _ => .null
  | .value type, x => .inline type x
  | .reference, r => r.toValue

namespace Method

variable {σ : Type} [ObjectNames σ]

/-- The argument at an index is of another type than its parameter declares. -/
def Refuses (m : Method σ) (args : ArgSlice) (index : Nat) : Prop :=
  ∃ p v, m.signature.params[index]? = some p ∧ args.values[index]? = some v ∧ p.Refuses v

/-- The error for an argument that a method's parameter refuses. -/
def refusal (m : Method σ) (r : Refusal) : CallM σ InvokeError := do
  let actual := r.actual.typeName (ObjectNames.typeName (← get))
  return .argumentTypeMismatch m.name r.index r.expected.name actual

/-- Respond to a call: refuse a wrong number of arguments, then the first argument of a wrong type,
and otherwise call the native method, once, and answer with its result. -/
def respond (m : Method σ) (receiver : Word) (slice : ArgSlice) :
    CallM σ (Except InvokeError Value) := do
  if slice.length ≠ m.arity then
    return .error (.argumentCountMismatch m.name m.arity slice.length)
  else
    match Args.accept slice 0 m.signature.params with
    | .error r => return .error (← m.refusal r)
    | .ok xs => return .ok (m.signature.ret.toValue (← m.native receiver xs))

end Method

/-- A thunk answers for a method with a receiver: it refuses a wrong number of arguments whatever
their types, then the argument of least index among those of a wrong type, both without any effect;
and otherwise it has the effect and the result of calling the native method once, with the receiver
and with what each parameter receives. -/
structure Thunk.Answers {σ : Type} [ObjectNames σ] (thunk : Thunk σ) (m : Method σ)
    (receiver : Word) : Prop where
  count (args : ArgSlice) (s : σ) : args.length ≠ m.arity →
    (thunk args).run s = (.ok (.error (.argumentCountMismatch m.name m.arity args.length)), s)
  mismatch (args : ArgSlice) (s : σ) (index : Nat) (type : ValueType) (v : Value) :
    args.length = m.arity → m.signature.params[index]? = some (.value type) →
    args.values[index]? = some v → v.type? ≠ some type → (∀ j < index, ¬ m.Refuses args j) →
    (thunk args).run s = (.ok (.error (.argumentTypeMismatch m.name index type.name
      (v.typeName (ObjectNames.typeName s)))), s)
  call (args : ArgSlice) (s : σ) : args.length = m.arity → (∀ i, ¬ m.Refuses args i) →
    ∃ xs : Args m.signature.params,
      (∀ i : Fin m.signature.params.length, ∃ v, args.values[i.val]? = some v ∧
        (m.signature.params.get i).Receives (args.slotAddress i) v (xs.get i)) ∧
      (thunk args).run s = (.ok (.ok (m.signature.ret.toValue ((m.native receiver xs).run s).1)),
        ((m.native receiver xs).run s).2)

namespace Method

private theorem refuses_iff {σ : Type} (m : Method σ) (args : ArgSlice)
    (hl : args.length = m.arity) (i : Fin m.signature.params.length) :
    m.Refuses args i ↔ (m.signature.params.get i).Refuses (args.valueAt i) := by
  have hi : i.val < args.length := by
    rw [hl]
    exact i.isLt
  simp [Refuses, args.getElem?_values hi]

variable {σ : Type} [ObjectNames σ] (m : Method σ)

/-- The response to a call does not depend on how a method is compiled, only on its declaration. -/
theorem respond_answers (receiver : Word) : Thunk.Answers (m.respond receiver) m receiver := by
  constructor
  · intro args s hl
    simp only [respond, hl, ne_eq, not_false_eq_true, if_true]
    rfl
  · intro args s index type v hl hp hv ht hmin
    obtain ⟨hi, hg⟩ := List.getElem?_eq_some_iff.mp hp
    have hiv : args.valueAt index = v := by simp [ArgSlice.valueAt, hv]
    have ha : Args.accept args 0 m.signature.params = .error ⟨index, type, v⟩ := by
      rw [Args.accept_eq_error_iff]
      refine ⟨⟨index, hi⟩, ?_, hg, ?_, fun j hj ↦ ?_⟩
      · rw [Nat.zero_add, hiv]
      · rw [Nat.zero_add, hiv, List.get_eq_getElem, hg]
        exact ht
      · rw [Nat.zero_add, ← refuses_iff m args hl j]
        exact hmin j hj
    simp only [respond, hl, ne_eq, not_true, if_false, ha]
    rfl
  · intro args s hl hn
    have hr (i : Fin m.signature.params.length) :
        ¬ (m.signature.params.get i).Refuses (args.valueAt (0 + i)) := by
      rw [Nat.zero_add, ← refuses_iff m args hl i]
      exact hn i
    obtain ⟨xs, hxs⟩ := Args.exists_accept_eq_ok args 0 _ hr
    refine ⟨xs, fun i ↦ ?_, ?_⟩
    · have hi : i.val < args.length := by
        rw [hl]
        exact i.isLt
      have hx := (Args.accept_eq_ok_iff args 0 _ xs).mp hxs i
      rw [Nat.zero_add] at hx
      exact ⟨args.valueAt i, args.getElem?_values hi, hx⟩
    · simp only [respond, hl, ne_eq, not_true, if_false, hxs]
      rfl

end Method
end Invocation
