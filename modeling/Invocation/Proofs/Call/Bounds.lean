import Invocation.Proofs.Call.Portable

/-!
# The words of a call are within bounds

The portable thunk fills its buffer one argument after the other, and where it has got to is what
`Portable.Reaches` says. Of a valid pair it never gets to an argument for which there is no room
(`Portable.Reaches.lt_maxParams`), refuses arguments only for parameters that are unboxed
(`Portable.Reaches.unbox_of_argumentWord`), and passes on as many words as the native method has
parameters (`Portable.Reaches.used_eq`). A call that responds as its method comes to an answer
without a fault (`Method.respond_returns`).
-/

namespace Invocation

/-- No word that a parameter is decoded from is out of bounds if there is one for each. -/
theorem Args.decode_ne_missingWord {slots : Word → Option Value} (index : Nat)
    {ps : List ParamType} {words : List Word} (enough : ps.length ≤ words.length) (i : Nat) :
    Args.decode slots ps index words ≠ .error (.missingWord i) := by
  induction ps generalizing index words with
  | nil => simp [decode]
  | cons p ps ih =>
    cases words with
    | nil => cases enough
    | cons w words =>
      have hp : p.decode slots w ≠ .error (.missingWord i) := by
        cases p with
        | value type => simp [ParamType.decode]
        | reference => cases hw : slots w <;> simp [ParamType.decode, hw]
      have hrest := ih (index + 1) (Nat.le_of_succ_le_succ enough)
      rw [decode]
      intro h
      cases hd : p.decode slots w with
      | error fault =>
        rw [hd] at h
        cases h
        exact hp hd
      | ok x =>
        cases hr : decode slots ps (index + 1) words with
        | error fault =>
          rw [hd, hr] at h
          cases h
          exact hrest hr
        | ok rest =>
          rw [hd, hr] at h
          cases h

variable {σ : Type}

namespace Portable

/-- How far the thunk has filled its buffer: the index it is at, the conversions and values that are
left, and the words so far. It starts once the arguments have been counted, and goes on behind an
argument that has a word. -/
inductive Reaches (b : Binding σ) (args : ArgSlice) :
    Nat → List (ArgConversion × Value) → WordBuffer → Prop
  | start : args.length = b.plan.arity →
    Reaches b args 0 (b.plan.args.zip args.values) (Vector.replicate maxParams 0)
  | next {index : Nat} {conversion : ArgConversion} {v : Value} {w : Word}
    {rest : List (ArgConversion × Value)} {words : WordBuffer} (room : index < maxParams) :
    Reaches b args index ((conversion, v) :: rest) words →
    argumentWord args index v conversion = some w →
    Reaches b args (index + 1) rest (words.set index w room)

namespace Reaches

variable {b : Binding σ} {args : ArgSlice} {index : Nat} {conversion : ArgConversion} {v : Value}
  {rest : List (ArgConversion × Value)} {words : WordBuffer}

/-- The buffer is only filled if the number of arguments is right. -/
theorem length_eq (h : Reaches b args index rest words) : args.length = b.plan.arity := by
  induction h with
  | start hl => exact hl
  | next _ _ _ ih => exact ih

/-- What is left are the conversions of the plan and the values from the index on. -/
theorem rest_eq (h : Reaches b args index rest words) :
    rest = (b.plan.args.zip args.values).drop index := by
  induction h with
  | start => rfl
  | next _ _ _ ih => rw [← List.tail_drop, ← ih, List.tail_cons]

/-- The next argument is the one of the plan and of the slice at the index. -/
theorem getElem?_zip (h : Reaches b args index ((conversion, v) :: rest) words) :
    (b.plan.args.zip args.values)[index]? = some (conversion, v) := by
  rw [← List.head?_drop, ← h.rest_eq, List.head?_cons]

/-- The next conversion is the one that the plan has at the index. -/
theorem getElem?_args (h : Reaches b args index ((conversion, v) :: rest) words) :
    b.plan.args[index]? = some conversion :=
  (List.getElem?_zip_eq_some.mp h.getElem?_zip).1

/-- The next value is that of the argument at the index. -/
theorem getElem?_values (h : Reaches b args index ((conversion, v) :: rest) words) :
    args.values[index]? = some v :=
  (List.getElem?_zip_eq_some.mp h.getElem?_zip).2

/-- There is room for the next word if the plan is small enough. -/
theorem lt_maxParams (hmax : b.plan.arity ≤ maxParams)
    (h : Reaches b args index ((conversion, v) :: rest) words) : index < maxParams := by
  obtain ⟨hi, -⟩ := List.getElem?_eq_some_iff.mp h.getElem?_args
  exact Nat.lt_of_lt_of_le hi hmax

/-- An argument without a word is one that is unboxed. -/
theorem unbox_of_argumentWord (h : Reaches b args index ((conversion, v) :: rest) words)
    (none_eq : argumentWord args index v conversion = none) :
    ∃ type, b.plan.args[index]? = some (.unbox type) := by
  cases conversion with
  | unbox type => exact ⟨type, h.getElem?_args⟩
  | passRef => cases none_eq

/-- Once nothing is left, as many words are passed on as there are arguments. -/
theorem used_eq (hmax : b.plan.arity ≤ maxParams) (h : Reaches b args index [] words) :
    (used words args.length : CallM σ (List Word)) = pure (words.toList.take args.length) ∧
      (words.toList.take args.length).length = b.plan.arity := by
  have hl : args.length ≤ maxParams := h.length_eq ▸ hmax
  refine ⟨used_of_le words hl, ?_⟩
  rw [List.length_take, Vector.length_toList, Nat.min_eq_left hl, h.length_eq]

/-- From wherever the thunk has got to, filling goes on as from the start. -/
theorem fill_eq [ObjectNames σ] (h : Reaches b args index rest words) :
    fill b args 0 (b.plan.args.zip args.values) (Vector.replicate maxParams 0) =
      fill b args index rest words := by
  induction h with
  | start => rfl
  | next room _ hw ih =>
    rw [ih, fill, hw]
    exact dif_pos room

end Reaches
end Portable

variable [ObjectNames σ]

/-- What a call of a compiled binding never does: fault, or report another argument than one that
its plan unboxes. -/
structure Thunk.Sound (thunk : Thunk σ) (plan : Plan) : Prop where
  returns (args : ArgSlice) (s : σ) : ∃ answer, ((thunk args).run s).1 = .ok answer
  mismatch (args : ArgSlice) (s : σ) (method : String) (index : Nat) (expected actual : String) :
    ((thunk args).run s).1 = .ok (.error (.argumentTypeMismatch method index expected actual)) →
    index < args.length ∧ ∃ type, plan.args[index]? = some (.unbox type) ∧ expected = type.name

namespace Method

variable (m : Method σ) (receiver : Word)

/-- The response to a call is never a fault. -/
theorem respond_returns (args : ArgSlice) (s : σ) :
    ∃ answer, ((m.respond receiver args).run s).1 = .ok answer := by
  by_cases hl : args.length = m.arity
  · cases ha : Args.accept args 0 m.signature.params with
    | error r =>
      simp only [respond, hl, ne_eq, not_true, if_false, ha]
      exact ⟨_, rfl⟩
    | ok xs =>
      simp only [respond, hl, ne_eq, not_true, if_false, ha]
      exact ⟨_, rfl⟩
  · simp only [respond, hl, ne_eq, not_false_eq_true, if_true]
    exact ⟨_, rfl⟩

/-- A refusal is that of an argument that there is; it names the type that the parameter declares and
the type of the argument, which is another. -/
theorem respond_mismatch {args : ArgSlice} {s : σ} {method expected actual : String} {index : Nat}
    (h : ((m.respond receiver args).run s).1 =
      .ok (.error (.argumentTypeMismatch method index expected actual))) :
    args.length = m.arity ∧ method = m.name ∧ ∃ type v,
      m.signature.params[index]? = some (.value type) ∧ args.values[index]? = some v ∧
      v.type? ≠ some type ∧ expected = type.name ∧
      actual = v.typeName (ObjectNames.typeName s) := by
  by_cases hl : args.length = m.arity
  · cases ha : Args.accept args 0 m.signature.params with
    | error r =>
      obtain ⟨hparam, hactual⟩ := Args.of_accept_eq_error ha
      simp only [respond, hl, ne_eq, not_true, if_false, ha] at h
      cases h
      have hi : r.index < args.length := by
        rw [hl]
        exact (List.getElem?_eq_some_iff.mp hparam).1
      refine ⟨hl, rfl, r.expected, r.actual, hparam, ?_, Args.type?_of_accept_eq_error ha, rfl, rfl⟩
      rw [args.getElem?_values hi, hactual]
    | ok xs =>
      simp only [respond, hl, ne_eq, not_true, if_false, ha] at h
      cases h
  · simp only [respond, hl, ne_eq, not_false_eq_true, if_true] at h
    cases h

/-- The response of a method is sound for the plan of its signature. -/
theorem respond_sound : Thunk.Sound (m.respond receiver) (.lower m.signature) where
  returns args s := m.respond_returns receiver args s
  mismatch args s method index expected actual h := by
    obtain ⟨-, -, type, v, hp, hv, -, he, -⟩ := m.respond_mismatch receiver h
    refine ⟨(List.getElem?_eq_some_iff.mp hv).1, type, ?_, he⟩
    rw [Plan.lower, List.getElem?_map, hp]
    rfl

end Method
end Invocation
