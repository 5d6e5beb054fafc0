import Invocation.Proofs.Call.Bounds
import Invocation.Proofs.Ownership.Calls
import Invocation.Proofs.Signature
import Invocation.Session.World

/-!
# What a type mismatch says

An argument of the wrong type is refused with two names: that of the type its parameter declares, and
that of its own type. The first is the name of an inline type. So is the second if the argument is
inline, and then it is another name; null has a name that no inline type has. An object goes by the
type of its contents, and the host program may call that by the name of an inline type, too
(`Value.Namesake`). So the two names tell the types apart but for such objects
(`Binding.Emits.mismatch_iff_namesake`).
-/

namespace Invocation

namespace ValueType

/-- Inline types have different names. -/
theorem name_inj {a b : ValueType} (h : a.name = b.name) : a = b :=
  ParamType.value.inj (ParamType.name_inj h)

/-- No inline type is called like null. -/
theorem name_ne_null (type : ValueType) : type.name ≠ "null" := by
  cases type <;> decide

/-- There is no comma in the name of an inline type. -/
theorem comma_notMem_name (type : ValueType) : ',' ∉ type.name.toList :=
  fun h ↦ absurd (ParamType.isAlphanum_of_mem_name (p := .value type) h) (by decide)

end ValueType

namespace Value

/-- An object of a type that is called like an inline type. -/
def Namesake (objectTypeName : ObjectRef → String) (v : Value) (type : ValueType) : Prop :=
  ∃ r, v = .object r ∧ objectTypeName r = type.name

/-- The type of a value has the name of an inline type if it is that type, or if the value is an
object of a type that is called alike. -/
theorem typeName_eq_name_iff (objectTypeName : ObjectRef → String) (v : Value) (type : ValueType) :
    v.typeName objectTypeName = type.name ↔
      v.type? = some type ∨ v.Namesake objectTypeName type := by
  cases v with
  | null => simp [typeName, type?, Namesake, type.name_ne_null.symm]
  | inline other x =>
    have h : other.name = type.name ↔ other = type := ⟨ValueType.name_inj, congrArg ValueType.name⟩
    simp [typeName, type?, Namesake, h]
  | object r => simp [typeName, type?, Namesake]

end Value

namespace InvokeError

/-- The characters of the message for an argument of the wrong type. -/
theorem toList_message_mismatch (method : String) (index : Nat) (expected actual : String) :
    (argumentTypeMismatch method index expected actual).message.toList =
      ("Argument " ++ toString index ++ " of " ++ method ++ ": expected ").toList ++
        (expected.toList ++ ',' :: (" got ".toList ++ actual.toList)) := by
  show ("Argument " ++ toString index ++ " of " ++ method ++ ": expected " ++ expected ++ ", got " ++
    actual).toList = _
  simp

/-- The message tells which two names are in the error, if there is no comma in the first. -/
theorem message_mismatch_eq_iff (method : String) (index : Nat) {expected actual x y : String}
    (he : ',' ∉ expected.toList) (hx : ',' ∉ x.toList) :
    (argumentTypeMismatch method index expected actual).message =
        (argumentTypeMismatch method index x y).message ↔
      expected = x ∧ actual = y := by
  constructor
  · intro h
    have htext := congrArg String.toList h
    rw [toList_message_mismatch, toList_message_mismatch] at htext
    obtain ⟨hexpected, hrest⟩ :=
      Text.append_cons_inj_of_notMem_left he hx (List.append_cancel_left htext)
    exact ⟨String.toList_inj.mp hexpected, String.toList_inj.mp (List.append_cancel_left hrest)⟩
  · rintro ⟨rfl, rfl⟩
    rfl

end InvokeError

section Thunks

variable {σ : Type} [ObjectNames σ]

/-- Whichever backend emitted a thunk, a type mismatch names the type that the parameter declares and
then that of the argument, which is another. The two names are the same exactly for an object of a
type that is called like the declared one, and never for null or an inline value. So it is exactly for
such objects that the message says of one name that it was expected and that it was got; a name with a
comma could hold the words between the two places. -/
theorem Binding.Emits.mismatch_iff_namesake {m : MethodHandle σ} {target : Option Target}
    {b : Binding σ} {thunk : Thunk σ} (bound : Binding.make m target = .ok b)
    (emits : b.Emits thunk) {args : ArgSlice} {s : σ} {method expected actual : String} {index : Nat}
    (refused : ((thunk args).run s).1 =
      .ok (.error (.argumentTypeMismatch method index expected actual))) :
    ∃ type v, m.method.signature.params[index]? = some (.value type) ∧
      args.values[index]? = some v ∧ v.type? ≠ some type ∧
      expected = type.name ∧ actual = v.typeName (ObjectNames.typeName s) ∧
      (expected = actual ↔ v.Namesake (ObjectNames.typeName s) type) ∧
      ∀ x : String, ',' ∉ x.toList →
        ((InvokeError.argumentTypeMismatch method index expected actual).message =
            "Argument " ++ toString index ++ " of " ++ method ++ ": expected " ++ x ++ ", got " ++ x ↔
          x = type.name ∧ v.Namesake (ObjectNames.typeName s) type) := by
  rw [emits.eq_respond bound] at refused
  obtain ⟨-, -, type, v, hparam, hvalue, htype, rfl, rfl⟩ := m.method.respond_mismatch _ refused
  -- The argument is of another type, so that it can only be called alike as an object.
  have alike : type.name = v.typeName (ObjectNames.typeName s) ↔
      v.Namesake (ObjectNames.typeName s) type := by
    rw [eq_comm, Value.typeName_eq_name_iff, or_iff_right htype]
  refine ⟨type, v, hparam, hvalue, htype, rfl, rfl, alike, fun x hx ↦ ?_⟩
  rw [← alike]
  refine (InvokeError.message_mismatch_eq_iff method index type.comma_notMem_name hx).trans ?_
  constructor
  · rintro ⟨rfl, hactual⟩
    exact ⟨rfl, hactual.symm⟩
  · rintro ⟨rfl, hactual⟩
    exact ⟨rfl, hactual.symm⟩

end Thunks

namespace Session

/-- A method that negates a truth value. -/
def negation : MethodHandle World :=
  ⟨0, 64, .function "not" [.value .bool] (.value .bool) 4096 fun (a, _) ↦ return !a⟩

/-- The binding of the method. -/
def negationBinding : Binding World := ⟨negation, none, ⟨[.unbox .bool], .box .bool⟩⟩

/-- An object that holds a truth value, and the state of the program once it is made. -/
def wrappedTruth : ObjectRef × World := World.empty.allocate (.host (.truth true))

/-- An object that holds a string, made after the other one. -/
def wrappedText : ObjectRef × World := wrappedTruth.2.allocateString "true"

/-- An object as the only argument of a call. -/
def onlyArg (r : ObjectRef) : ArgSlice :=
  ⟨8192, [.object r], fun _ ↦ 0, (by decide : 1 * slotSize ≤ maxSliceBytes)⟩

/-- Given a string, generated code for the method says what it expected and what else it got. -/
theorem mismatch_iff_namesake_wrappedText :
    ∃ code, Machine.generate negationBinding = .ok code ∧
      ((Machine.thunk negationBinding code (onlyArg wrappedText.1)).run wrappedText.2).1 =
        .ok (.error (.argumentTypeMismatch "not" 0 "bool" "alloc::string::String")) ∧
      ∀ x : String, ',' ∉ x.toList →
        (InvokeError.argumentTypeMismatch "not" 0 "bool" "alloc::string::String").message ≠
          "Argument 0 of not: expected " ++ x ++ ", got " ++ x := by
  have bound : Binding.make negation none = .ok negationBinding := rfl
  obtain ⟨code, generated⟩ : ∃ code, Machine.generate negationBinding = .ok code :=
    ⟨_, Machine.generate_eq_ok negationBinding⟩
  have refused : ((Machine.thunk negationBinding code (onlyArg wrappedText.1)).run wrappedText.2).1 =
      .ok (.error (.argumentTypeMismatch "not" 0 "bool" "alloc::string::String")) := by
    rw [Machine.thunk_eq_respond bound generated]
    rfl
  refine ⟨code, generated, refused, fun x hx hmessage ↦ ?_⟩
  obtain ⟨type, v, hparam, hvalue, -, -, -, -, hreads⟩ :=
    Binding.Emits.mismatch_iff_namesake bound (.machine code generated) refused
  obtain rfl : ValueType.bool = type := ParamType.value.inj (Option.some.inj hparam)
  obtain rfl : Value.object wrappedText.1 = v := Option.some.inj hvalue
  have hfront : "Argument " ++ toString 0 ++ " of " ++ "not" ++ ": expected " =
      "Argument 0 of not: expected " := by decide
  obtain ⟨-, r, hr, hname⟩ := (hreads x hx).mp (by rw [hfront]; exact hmessage)
  obtain rfl : wrappedText.1 = r := Value.object.inj hr
  exact absurd hname (by decide)

/-- Given an object that holds a truth value, the thunks of both backends say that they expected a
truth value and got one. -/
theorem not_told_apart_wrappedTruth :
    Binding.make negation none = .ok negationBinding ∧
      (∃ code, Machine.generate negationBinding = .ok code) ∧
      (∀ thunk, negationBinding.Emits thunk → (thunk (onlyArg wrappedTruth.1)).run wrappedTruth.2 =
        (.ok (.error (.argumentTypeMismatch "not" 0 "bool" "bool")), wrappedTruth.2)) ∧
      (InvokeError.argumentTypeMismatch "not" 0 "bool" "bool").message =
        "Argument 0 of not: expected bool, got bool" := by
  have bound : Binding.make negation none = .ok negationBinding := rfl
  refine ⟨bound, ⟨_, Machine.generate_eq_ok negationBinding⟩, fun thunk emits ↦ ?_, by decide⟩
  rw [emits.eq_respond bound]
  rfl

end Session

end Invocation
