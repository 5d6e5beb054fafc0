import Invocation.Compiler
import Invocation.Proofs.Binding
import Invocation.Proofs.Call.Response

/-!
# The portable thunk responds as its method

The words that a portable thunk passes to the native method decode to exactly what the parameters
accept from the slots, so the thunk of a valid binding is `Method.respond`, whatever the native
method does and however many arguments it is given (`Portable.thunk_eq_respond`).
-/

namespace Invocation

namespace ParamType

/-- The word that stands for an argument: the encoded payload, or the address of the slot. -/
def encode : (p : ParamType) → p.Arg → Word
  | .value type, x => type.encode x
  | .reference, r => r.slot

/-- The word of what a parameter receives from a live slot decodes to it. -/
theorem decode_encode (slots : Word → Option Value) {slot : Word} {v : Value} (p : ParamType)
    {x : p.Arg} (h : p.Receives slot v x) (live : slots slot = some v) :
    p.decode slots (p.encode x) = .ok x := by
  cases p with
  | value type => simp [encode, decode, ValueType.decode_encode]
  | reference =>
    obtain rfl : x = ⟨slot, v⟩ := h
    simp [encode, decode, live]

end ParamType

namespace Args

/-- The words that stand for arguments, in order. -/
def encode : (ps : List ParamType) → Args ps → List Word
  | [], _ => []
  | p :: ps, (x, rest) => p.encode x :: encode ps rest

/-- The words of accepted arguments decode to them. -/
theorem decode_encode (slice : ArgSlice) (index start : Nat) (ps : List ParamType) {xs : Args ps}
    (h : accept slice index ps = .ok xs) (fits : index + ps.length ≤ slice.length) :
    decode slice.valueAt? ps start (encode ps xs) = .ok xs := by
  induction ps generalizing index start with
  | nil => rfl
  | cons p ps ih =>
    obtain ⟨x, rest⟩ := xs
    rw [List.length_cons] at fits
    have hr := (accept_eq_ok_iff slice index (p :: ps) (x, rest)).mp h
    have live := slice.valueAt?_slotAddress (by omega : index < slice.length)
    have hx : p.decode slice.valueAt? (p.encode x) = .ok x :=
      p.decode_encode _ (hr ⟨0, Nat.succ_pos _⟩) live
    obtain ⟨-, hs⟩ := (accept_cons_eq_ok_iff slice index p ps x rest).mp h
    simp [encode, decode, hx, ih (index + 1) (start + 1) hs (by omega)]

end Args

/-- On the words of accepted arguments a native method acts as on the arguments themselves. -/
theorem Method.callWords_encode {σ : Type} (m : Method σ) (slice : ArgSlice) (receiver : Word)
    {xs : Args m.signature.params} (h : Args.accept slice 0 m.signature.params = .ok xs)
    (fits : 0 + m.signature.params.length ≤ slice.length) :
    m.callWords slice.valueAt? receiver (Args.encode _ xs) =
      do return m.signature.ret.encode (← m.native receiver xs) := by
  rw [callWords, Native.callWords, Args.decode_encode slice 0 0 _ h fits]

variable {σ : Type} [ObjectNames σ]

namespace Plan

/-- A plan that was lowered from a method's signature refuses an argument as the method does. -/
theorem refuse_lower (m : Method σ) {index : Nat} {type : ValueType}
    (h : m.signature.params[index]? = some (.value type)) (v : Value) :
    (lower m.signature).refuse m.name index v = m.refusal ⟨index, type, v⟩ := by
  have hm (actual : String) : (lower m.signature).typeMismatch? m.name index actual =
      some (.argumentTypeMismatch m.name index type.name actual) := by
    simp [typeMismatch?, lower, h, ParamType.conversion]
  simp only [refuse, hm]
  rfl

end Plan

/-- The word of a native result is turned into its value. -/
theorem ReturnType.toValue_encode (ret : ReturnType) (x : ret.Result) :
    ret.conversion.toValue (ret.encode x) = ret.toValue x := by
  cases ret with
  | void => rfl
  | value type => exact Value.box_encode type x
  | reference => exact congrArg RawObject.toValue (RawObject.ofWord_toWord x)

namespace Portable

/-- An accepted argument travels as the word that stands for it. -/
theorem argumentWord_of_accept_eq_ok (args : ArgSlice) (index : Nat) (v : Value) (p : ParamType)
    {x : p.Arg} (h : p.accept (args.slotAddress index) v = .ok x) :
    argumentWord args index v p.conversion = some (p.encode x) := by
  have hr := (ParamType.accept_eq_ok_iff _ _ _ _).mp h
  cases p with
  | value type =>
    obtain rfl : v = .inline type x := hr
    simp [argumentWord, ParamType.conversion, ParamType.encode, Value.unbox, Value.payload?_inline]
  | reference =>
    obtain rfl : x = ⟨args.slotAddress index, v⟩ := hr
    rfl

/-- There is no word for a refused argument. -/
theorem argumentWord_of_accept_eq_error (args : ArgSlice) (index : Nat) (v : Value) (p : ParamType)
    {type : ValueType} (h : p.accept (args.slotAddress index) v = .error type) :
    argumentWord args index v p.conversion = none := by
  obtain ⟨rfl, hv⟩ := (ParamType.accept_eq_error_iff _ _ _ _).mp h
  have hn := (Value.payload?_eq_none_iff type v).mpr hv
  simp [argumentWord, ParamType.conversion, Value.unbox, hn]

variable (b : Binding σ) (args : ArgSlice)

/-- The conversions of the parameters from an index on, with the values for them. -/
theorem zip_drop {index : Nat} {p : ParamType} {ps : List ParamType} (h : index < args.length) :
    ((p :: ps).map ParamType.conversion).zip (args.values.drop index) =
      (p.conversion, args.valueAt index) ::
        (ps.map ParamType.conversion).zip (args.values.drop (index + 1)) := by
  have hv : args.values.get ⟨index, h⟩ = args.valueAt index :=
    Option.some.inj ((List.getElem?_eq_getElem h).symm.trans (args.getElem?_values h))
  rw [List.drop_eq_getElem_cons h, ← hv]
  rfl

/-- Accepted arguments fill the buffer with their words, behind what is there already. -/
theorem fill_of_accept_eq_ok (index : Nat) (ps : List ParamType) {xs : Args ps}
    (h : Args.accept args index ps = .ok xs) (fits : index + ps.length ≤ args.length)
    (room : index + ps.length ≤ maxParams) (words : WordBuffer) :
    ∃ filled : WordBuffer,
      fill b args index ((ps.map ParamType.conversion).zip (args.values.drop index)) words =
          pure (.ok filled) ∧
        filled.toList.take (index + ps.length) =
          words.toList.take index ++ Args.encode ps xs := by
  induction ps generalizing index words with
  | nil => exact ⟨words, by simp [fill], by simp [Args.encode]⟩
  | cons p ps ih =>
    obtain ⟨x, rest⟩ := xs
    rw [List.length_cons] at fits room
    obtain ⟨hx, hr⟩ := (Args.accept_cons_eq_ok_iff args index p ps x rest).mp h
    have hw := argumentWord_of_accept_eq_ok args index _ p hx
    have hi : index < maxParams := by omega
    obtain ⟨filled, hf, ht⟩ :=
      ih (index + 1) hr (by omega) (by omega) (words.set index (p.encode x))
    refine ⟨filled, ?_, ?_⟩
    · rw [zip_drop args (by omega), fill, hw]
      simp only [hi, dite_true]
      exact hf
    · have hl : index < words.toList.length := by
        rw [Vector.length_toList]
        exact hi
      rw [List.length_cons, Nat.add_comm ps.length, ← Nat.add_assoc, ht, Args.encode,
        Vector.toList_set, List.take_add_one, List.take_set_of_le (Nat.le_refl _),
        List.getElem?_set_self hl, List.append_assoc]
      rfl

/-- Filling stops at the first refused argument, with its error. -/
theorem fill_of_accept_eq_error (hb : b.plan = .lower b.method.method.signature) (index : Nat)
    (ps : List ParamType) (hps : b.method.method.signature.params.drop index = ps) {r : Refusal}
    (h : Args.accept args index ps = .error r) (fits : index + ps.length ≤ args.length)
    (room : index + ps.length ≤ maxParams) (words : WordBuffer) :
    fill b args index ((ps.map ParamType.conversion).zip (args.values.drop index)) words =
      do return .error (← b.method.method.refusal r) := by
  induction ps generalizing index words with
  | nil => simp [Args.accept] at h
  | cons p ps ih =>
    rw [List.length_cons] at fits room
    rw [zip_drop args (by omega), fill]
    obtain ⟨type, hp, rfl⟩ | ⟨⟨x, hp⟩, hr⟩ := (Args.accept_cons_eq_error_iff args index p ps r).mp h
    · obtain ⟨rfl, -⟩ := (ParamType.accept_eq_error_iff _ _ _ _).mp hp
      have hd : b.method.method.signature.params[index]? = some (.value type) := by
        rw [← List.head?_drop, hps]
        rfl
      rw [argumentWord_of_accept_eq_error args index _ _ hp, hb, Binding.name,
        Plan.refuse_lower b.method.method hd]
    · have hi : index < maxParams := by omega
      have hd : b.method.method.signature.params.drop (index + 1) = ps := by
        rw [← List.tail_drop, hps]
        rfl
      simp only [argumentWord_of_accept_eq_ok args index _ p hp, hi, dite_true]
      exact ih (index + 1) hd hr (by omega) (by omega) _

/-- There is room for the words of as many arguments as a method can take. -/
theorem used_of_le {σ : Type} (words : WordBuffer) {count : Nat} (h : count ≤ maxParams) :
    (used words count : CallM σ (List Word)) = pure (words.toList.take count) := by
  simp [used, h]

/-- The portable thunk of a valid pair is the response of its method, for every number of arguments
and every state. -/
theorem thunk_eq_respond {m : MethodHandle σ} {target : Option Target} {b : Binding σ}
    (bound : Binding.make m target = .ok b) :
    thunk b = m.method.respond (Target.receiverWord target) := by
  obtain ⟨⟨hmax, -⟩, hb⟩ := (Binding.make_eq_ok_iff m target b).mp bound
  have hp : b.plan = .lower b.method.method.signature := by rw [hb]
  obtain rfl : b.method = m := by rw [hb]
  obtain rfl : b.target = target := by rw [hb]
  have ha : b.plan.arity = b.method.method.arity := by rw [hp, Plan.arity_lower]; rfl
  have hr : b.plan.ret = b.method.method.signature.ret.conversion := by rw [hp]; rfl
  funext args
  by_cases hl : args.length = b.method.method.arity
  · have fits : 0 + b.method.method.signature.params.length ≤ args.length := by
      rw [hl, Nat.zero_add]
      exact Nat.le_refl _
    have room : 0 + b.method.method.signature.params.length ≤ maxParams := by
      rw [Nat.zero_add]
      exact hmax
    have hz : b.plan.args.zip args.values =
        (b.method.method.signature.params.map ParamType.conversion).zip (args.values.drop 0) := by
      rw [hp]
      rfl
    simp only [thunk, Method.respond, Plan.checkCount, ha, hl, hz, if_true, ne_eq, not_true,
      if_false]
    cases h : Args.accept args 0 b.method.method.signature.params with
    | error r =>
      rw [fill_of_accept_eq_error b args hp 0 b.method.method.signature.params rfl h fits room]
      simp only [bind_assoc, pure_bind]
    | ok xs =>
      obtain ⟨filled, hf, ht⟩ :=
        fill_of_accept_eq_ok b args 0 _ h fits room (Vector.replicate maxParams 0)
      have hw : filled.toList.take b.method.method.arity = Args.encode _ xs := by
        rw [Nat.zero_add, List.take_zero, List.nil_append] at ht
        exact ht
      rw [hf]
      simp only [pure_bind, used_of_le filled hmax, hw, bind_assoc, Binding.receiver,
        Method.callWords_encode _ args _ h fits, hr, ReturnType.toValue_encode]
  · simp [thunk, Method.respond, Plan.checkCount, ha, hl, Binding.name]

/-- The calls of one method, for a host program that does nothing but take note of them. -/
structure CallLog (ps : List ParamType) where
  calls : List (Word × Args ps)

/-- Objects have no types worth a name to such a program. -/
instance (ps : List ParamType) : ObjectNames (CallLog ps) := ⟨fun _ _ ↦ "object"⟩

/-- A method on instances of a type that takes note of its call and returns its first argument. -/
def notedScale : MethodHandle (CallLog [.value .f32, .reference]) :=
  ⟨0, 64, "Scale.apply", ⟨[.value .f32, .reference], .value .f32, .instance ⟨1, "Scale"⟩⟩, 4096,
    fun receiver (x, r, _) log ↦ (x, ⟨log.calls ++ [(receiver, x, r, ())]⟩)⟩

/-- An instance that the method can be bound to. -/
def boundScale : Target := ⟨1, 128, ⟨1, "Scale"⟩⟩

/-- A float reaches the method with all its bits, and a reference with its slot. -/
example :
    (thunk ⟨notedScale, some boundScale, ⟨[.unbox .f32, .passRef], .box .f32⟩⟩
      ⟨4096, [.inline .f32 (0x7fc00001 : BitVec 32), .null], fun _ ↦ 0, by decide⟩).run ⟨[]⟩ =
    (.ok (.ok (.inline .f32 (0x7fc00001 : BitVec 32))),
      ⟨[(128, (0x7fc00001 : BitVec 32), ⟨4112, .null⟩, ())]⟩) := rfl

end Portable
end Invocation
