import Invocation.Proofs.Call.Response

/-!
# Calls on raw words

A method that is called on raw words goes through what the words denote at the declared types, and
through nothing else (`Method.calls_factor`). It is not called at all if there are too few words.
Words that denote the same arguments are as good as each other, canonical or not, and words beyond the
last parameter are not looked at.
-/

namespace Invocation

/-- What a word denotes at a type: whether it is other than zero, its low half, or all of it. -/
def ValueType.Denotes : (type : ValueType) → Word → type.Payload → Prop
  | .bool, w, b => b = true ↔ w ≠ 0
  | .i32, w, x => ∀ k < 32, BitVec.getLsbD x k = w.getLsbD k
  | .u32, w, x => ∀ k < 32, BitVec.getLsbD x k = w.getLsbD k
  | .f32, w, x => ∀ k < 32, BitVec.getLsbD x k = w.getLsbD k
  | .i64, w, x => x = w
  | .u64, w, x => x = w
  | .f64, w, x => x = w

/-- A 32-bit payload that has the low bits of a word is its low half. -/
private theorem lowBits_iff (w : Word) (x : BitVec 32) :
    (∀ k < 32, x.getLsbD k = w.getLsbD k) ↔ x = w.setWidth 32 := by
  constructor
  · intro h
    apply BitVec.eq_of_getLsbD_eq
    intro k hk
    rw [h k hk, BitVec.getLsbD_setWidth]
    simp [hk]
  · rintro rfl k hk
    rw [BitVec.getLsbD_setWidth]
    simp [hk]

/-- A word denotes its decoded payload, and nothing else. -/
theorem ValueType.denotes_iff (type : ValueType) (w : Word) (x : type.Payload) :
    type.Denotes w x ↔ x = type.decode w := by
  cases type with
  | bool =>
    show (x = true ↔ w ≠ 0) ↔ x = (w != 0)
    rw [← bne_iff_ne]
    exact Bool.eq_iff_iff.symm
  | i32 | u32 | f32 => exact lowBits_iff w x
  | i64 | u64 | f64 => exact Iff.rfl

namespace ParamType

/-- What a word denotes for a parameter: a payload, or the value in the slot that it names. -/
def Denotes (slots : Word → Option Value) : (p : ParamType) → Word → p.Arg → Prop
  | .value type, w, x => type.Denotes w x
  | .reference, w, r => r.slot = w ∧ slots w = some r.value

/-- The canonical word for what a word denotes. -/
def canonicalWord : ParamType → Word → Word
  | .value type, w => type.encode (type.decode w)
  | .reference, w => w

variable {slots : Word → Option Value}

/-- A word is decoded to what it denotes. -/
theorem decode_eq_ok_iff (p : ParamType) (w : Word) (x : p.Arg) :
    p.decode slots w = .ok x ↔ p.Denotes slots w x := by
  cases p with
  | value type => rw [Denotes, ValueType.denotes_iff, decode, Except.ok.injEq, eq_comm]
  | reference =>
    obtain ⟨slot, v⟩ := x
    simp only [decode, Denotes]
    cases hw : slots w with
    | none => simp
    | some u => simp [eq_comm]

/-- A word is decoded unless it is a reference to no live slot. -/
theorem exists_decode_eq_ok {p : ParamType} {w : Word}
    (live : p = .reference → (slots w).isSome) : ∃ x, p.decode slots w = .ok x := by
  cases p with
  | value type => exact ⟨_, rfl⟩
  | reference =>
    obtain ⟨v, hv⟩ := Option.isSome_iff_exists.mp (live rfl)
    exact ⟨⟨w, v⟩, by simp [decode, hv]⟩

/-- The canonical word is decoded as the word is. -/
theorem decode_canonicalWord (p : ParamType) (w : Word) :
    p.decode slots (p.canonicalWord w) = p.decode slots w := by
  cases p with
  | value type => simp only [decode, canonicalWord, ValueType.decode_encode]
  | reference => rfl

end ParamType

namespace Args

/-- Words denote arguments: each parameter has the word at its own place. -/
def Denote (slots : Word → Option Value) (ps : List ParamType) (words : List Word) (xs : Args ps) :
    Prop :=
  ∀ i : Fin ps.length, ∃ w, words[i.val]? = some w ∧ (ps.get i).Denotes slots w (xs.get i)

/-- The words for references, as far as there are words, name live slots. -/
def Live (slots : Word → Option Value) (ps : List ParamType) (words : List Word) : Prop :=
  ∀ (i : Nat) (w : Word), ps[i]? = some .reference → words[i]? = some w → (slots w).isSome

variable {slots : Word → Option Value}

/-- Arguments are denoted one by one. -/
theorem denote_cons_iff {p : ParamType} {ps : List ParamType} {w : Word} {words : List Word}
    {x : p.Arg} {rest : Args ps} :
    Denote slots (p :: ps) (w :: words) (x, rest) ↔
      p.Denotes slots w x ∧ Denote slots ps words rest := by
  constructor
  · intro h
    obtain ⟨v, hv, hx⟩ := h ⟨0, Nat.succ_pos _⟩
    obtain rfl : w = v := Option.some.inj hv
    exact ⟨hx, fun i ↦ h ⟨i + 1, Nat.succ_lt_succ i.isLt⟩⟩
  · rintro ⟨hx, h⟩ ⟨i, hi⟩
    cases i with
    | zero => exact ⟨w, rfl, hx⟩
    | succ i => exact h ⟨i, Nat.lt_of_succ_lt_succ hi⟩

/-- The first word names a live slot if it is one for a reference. -/
theorem Live.head {p : ParamType} {ps : List ParamType} {w : Word} {words : List Word}
    (h : Live slots (p :: ps) (w :: words)) (hp : p = .reference) : (slots w).isSome :=
  h 0 w (congrArg some hp) rfl

/-- The words after the first name live slots if all do. -/
theorem Live.tail {p : ParamType} {ps : List ParamType} {w : Word} {words : List Word}
    (h : Live slots (p :: ps) (w :: words)) : Live slots ps words :=
  fun i v hp hv ↦ h (i + 1) v hp hv

/-- Words are decoded to the arguments that they denote. -/
theorem decode_eq_ok_iff (index : Nat) (ps : List ParamType) (words : List Word) (xs : Args ps) :
    decode slots ps index words = .ok xs ↔ Denote slots ps words xs := by
  induction ps generalizing index words with
  | nil => exact ⟨fun _ (i : Fin 0) ↦ i.elim0, fun _ ↦ rfl⟩
  | cons p ps ih =>
    obtain ⟨x, rest⟩ := xs
    cases words with
    | nil =>
      refine ⟨fun h ↦ (by cases h), fun h ↦ ?_⟩
      obtain ⟨w, hw, -⟩ := h ⟨0, Nat.succ_pos _⟩
      cases hw
    | cons w words =>
      rw [denote_cons_iff, ← ih (index + 1) words rest, ← p.decode_eq_ok_iff w x, decode]
      cases p.decode slots w with
      | error fault => simp
      | ok y => cases decode slots ps (index + 1) words <;> simp

/-- Too few words are not decoded, and the first one missing is named. -/
theorem decode_of_lt (index : Nat) {ps : List ParamType} {words : List Word}
    (live : Live slots ps words) (short : words.length < ps.length) :
    decode slots ps index words = .error (.missingWord (index + words.length)) := by
  induction ps generalizing index words with
  | nil => cases short
  | cons p ps ih =>
    cases words with
    | nil => rfl
    | cons w words =>
      obtain ⟨x, hx⟩ := ParamType.exists_decode_eq_ok live.head
      have hrest := ih (index + 1) live.tail (Nat.lt_of_succ_lt_succ short)
      simp only [decode, hx, hrest, List.length_cons, Nat.add_assoc, Nat.add_comm 1]

/-- Enough words denote arguments, if those for references name live slots. -/
theorem exists_denote {ps : List ParamType} {words : List Word} (live : Live slots ps words)
    (enough : ps.length ≤ words.length) : ∃ xs, Denote slots ps words xs := by
  induction ps generalizing words with
  | nil => exact ⟨(), fun (i : Fin 0) ↦ i.elim0⟩
  | cons p ps ih =>
    cases words with
    | nil => cases enough
    | cons w words =>
      obtain ⟨x, hx⟩ := ParamType.exists_decode_eq_ok live.head
      obtain ⟨rest, hrest⟩ := ih live.tail (Nat.le_of_succ_le_succ enough)
      exact ⟨(x, rest), denote_cons_iff.mpr ⟨(p.decode_eq_ok_iff w x).mp hx, hrest⟩⟩

/-- What is decoded depends only on what each parameter's own word is decoded to. -/
theorem decode_congr {index : Nat} {ps : List ParamType} {words words' : List Word}
    (h : ∀ (i : Nat) (p : ParamType), ps[i]? = some p →
      words'[i]?.map (p.decode slots) = words[i]?.map (p.decode slots)) :
    decode slots ps index words' = decode slots ps index words := by
  induction ps generalizing index words words' with
  | nil => rfl
  | cons p ps ih =>
    have hp := h 0 p rfl
    cases words with
    | nil =>
      cases words' with
      | nil => rfl
      | cons w' words' => cases hp
    | cons w words =>
      cases words' with
      | nil => cases hp
      | cons w' words' =>
        have hw : p.decode slots w' = p.decode slots w := Option.some.inj hp
        simp only [decode, hw, ih fun i q hq ↦ h (i + 1) q hq]

/-- A word can be replaced by the canonical one. -/
theorem decode_set_canonicalWord (slots : Word → Option Value) (index : Nat) {i : Nat}
    {ps : List ParamType} {words : List Word} {p : ParamType} {w : Word}
    (hp : ps[i]? = some p) (hw : words[i]? = some w) :
    decode slots ps index (words.set i (p.canonicalWord w)) = decode slots ps index words := by
  apply decode_congr
  intro j q hq
  by_cases hj : i = j
  · subst hj
    obtain rfl : p = q := Option.some.inj (hp.symm.trans hq)
    obtain ⟨hi, -⟩ := List.getElem?_eq_some_iff.mp hw
    rw [List.getElem?_set_self hi, hw, Option.map_some, Option.map_some, p.decode_canonicalWord]
  · rw [List.getElem?_set_ne hj]

/-- Words beyond the last parameter make no difference. -/
theorem decode_append (slots : Word → Option Value) (index : Nat) {ps : List ParamType}
    {words : List Word} (enough : ps.length ≤ words.length) (more : List Word) :
    decode slots ps index (words ++ more) = decode slots ps index words := by
  apply decode_congr
  intro i p hp
  obtain ⟨hi, -⟩ := List.getElem?_eq_some_iff.mp hp
  rw [List.getElem?_append_left (Nat.lt_of_lt_of_le hi enough)]

end Args

/-- Calls of a method on raw words, with live slots and a receiver, are calls of native code on what
the words denote. -/
structure Method.FactorsThrough {σ : Type} (m : Method σ) (slots : Word → Option Value)
    (receiver : Word) (f : Args m.signature.params → StateM σ m.signature.ret.Result) : Prop where
  /-- With too few words nothing is called, and nothing changes. -/
  missing (words : List Word) (s : σ) : Args.Live slots m.signature.params words →
    words.length < m.arity →
    (m.callWords slots receiver words).run s = (.error (.missingWord words.length), s)
  /-- Enough words denote arguments for the declared parameters. -/
  denote (words : List Word) : Args.Live slots m.signature.params words →
    m.arity ≤ words.length → ∃ xs, Args.Denote slots m.signature.params words xs
  /-- With words that denote arguments the native code is called on those, once. -/
  call (words : List Word) (xs : Args m.signature.params) (s : σ) :
    Args.Denote slots m.signature.params words xs →
    (m.callWords slots receiver words).run s =
      (.ok (m.signature.ret.encode ((f xs).run s).1), ((f xs).run s).2)
  /-- The canonical word in place of a word denotes the same, and the call is the same. -/
  canonical (words : List Word) (i : Nat) (p : ParamType) (w : Word) :
    m.signature.params[i]? = some p → words[i]? = some w →
    (∀ xs, Args.Denote slots m.signature.params (words.set i (p.canonicalWord w)) xs ↔
      Args.Denote slots m.signature.params words xs) ∧
    m.callWords slots receiver (words.set i (p.canonicalWord w)) =
      m.callWords slots receiver words
  /-- With more words than parameters the same is denoted, and the call is the same. -/
  append (words more : List Word) : m.arity ≤ words.length →
    (∀ xs, Args.Denote slots m.signature.params (words ++ more) xs ↔
      Args.Denote slots m.signature.params words xs) ∧
    m.callWords slots receiver (words ++ more) = m.callWords slots receiver words
  /-- The word of a result is the canonical one for its type, and 0 for no result. -/
  result (words : List Word) (s s' : σ) (w : Word) :
    (m.callWords slots receiver words).run s = (.ok w, s') →
    (∀ type, m.signature.ret = .value type → type.encode (type.decode w) = w) ∧
    (m.signature.ret = .void → w = 0)

namespace ReturnType

/-- The word of a payload is the canonical one. -/
theorem encode_decode_encode {ret : ReturnType} {type : ValueType} (h : ret = .value type)
    (x : ret.Result) : type.encode (type.decode (ret.encode x)) = ret.encode x := by
  subst h
  exact congrArg type.encode (type.decode_encode x)

/-- The word of no result is 0. -/
theorem encode_of_eq_void {ret : ReturnType} (h : ret = .void) (x : ret.Result) :
    ret.encode x = 0 := by
  subst h
  rfl

end ReturnType

namespace Method

variable {σ : Type}

/-- A call that comes to a result has decoded its arguments, and the result is that of the native
code. -/
private theorem exists_of_run_callWords {m : Method σ} {slots : Word → Option Value} {receiver : Word}
    {words : List Word} {s s' : σ} {w : Word}
    (h : (m.callWords slots receiver words).run s = (.ok w, s')) :
    ∃ x : m.signature.ret.Result, w = m.signature.ret.encode x := by
  unfold callWords Native.callWords at h
  cases hd : Args.decode slots m.signature.params 0 words with
  | error fault =>
    rw [hd] at h
    cases h
  | ok xs =>
    rw [hd] at h
    cases h
    exact ⟨_, rfl⟩

/-- Whatever a method is made of, its calls on raw words are calls of its native code with the
receiver. -/
theorem factorsThrough_native (m : Method σ) (slots : Word → Option Value) (receiver : Word) :
    m.FactorsThrough slots receiver (m.native receiver) where
  missing words s live short := by
    rw [callWords, Native.callWords, Args.decode_of_lt 0 live short, Nat.zero_add]
    rfl
  denote _ live enough := Args.exists_denote live enough
  call words xs s denoted := by
    rw [callWords, Native.callWords, (Args.decode_eq_ok_iff 0 _ words xs).mpr denoted]
    rfl
  canonical words i p w hp hw := by
    have hd := Args.decode_set_canonicalWord slots 0 hp hw
    refine ⟨fun xs ↦ ?_, ?_⟩
    · rw [← Args.decode_eq_ok_iff 0, hd, Args.decode_eq_ok_iff]
    · simp only [callWords, Native.callWords, hd]
  append words more enough := by
    have hd := Args.decode_append slots 0 enough more
    refine ⟨fun xs ↦ ?_, ?_⟩
    · rw [← Args.decode_eq_ok_iff 0, hd, Args.decode_eq_ok_iff]
    · simp only [callWords, Native.callWords, hd]
  result words s s' w h := by
    obtain ⟨x, rfl⟩ := exists_of_run_callWords h
    exact ⟨fun type ht ↦ ReturnType.encode_decode_encode ht x,
      fun hv ↦ ReturnType.encode_of_eq_void hv x⟩

/-- Calls on raw words factor through what the words denote at the types of the signature, in its
order, whether a method was made of native code without a receiver, which it does not get to see
then, or of native code on instances. -/
theorem calls_factor (name : String) (params : List ParamType) (ret : ReturnType) (entry : Word)
    (slots : Word → Option Value) (receiver : Word) :
    (∀ f : Args params → StateM σ ret.Result,
      (function name params ret entry f).FactorsThrough slots receiver f) ∧
    ∀ (type : HostType) (f : Native σ params ret),
      (onInstance name type params ret entry f).FactorsThrough slots receiver (f receiver) :=
  ⟨fun _ ↦ factorsThrough_native _ slots receiver,
    fun _ _ ↦ factorsThrough_native _ slots receiver⟩

/-- Words that no thunk would pass: a truth value of 2, an integer with high bits that are none of its
own, and one word too many. -/
example : ((function "choose" [.value .bool, .value .u32] (.value .u32) 4096
      fun (b, x, _) ↦ (pure (if b then x else 0) : StateM Unit (BitVec 32))).callWords
    (fun _ ↦ none) 0 [2, 0xffffffff00000007, 9]).run () = (.ok 7, ()) := rfl

end Method
end Invocation
