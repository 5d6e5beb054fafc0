import Invocation.Proofs.Cache.Client

/-!
# The backends of a session as clients

The backends that a session can choose from use the cache they emit for as clients do: the two of the
library not at all, and those of a session's own for one request. So what holds for all emitters
holds for them (`Session.BackendChoice.exists_emitter`).
-/

namespace Invocation

/-- A backend that makes no requests, as one that uses the cache. -/
def Emitter.quiet {σ τ : Type} (name : String)
    (emit : Binding σ → Except CompileError (Thunk σ)) : Emitter σ τ :=
  ⟨name, fun b ↦ .done (emit b)⟩

/-- A backend that makes no requests is one that uses the cache, to any depth but none. -/
theorem Emitter.backend_quiet {σ τ : Type} [Surroundings τ] (name : String)
    (emit : Binding σ → Except CompileError (Thunk σ)) (depth : Nat) :
    (⟨name, fun b ↦ pure (emit b)⟩ : Backend σ (InvokerCache σ × τ)) =
      (Emitter.quiet name emit).backend Note.ignore (depth + 1) := rfl

namespace Session

namespace OwnBackend

/-- What the backend does at last: fail, or emit the thunk. -/
def deliver (o : OwnBackend) (b : Binding World) :
    Client World Bench (Except CompileError (Thunk World)) :=
  .work
    (fun x ↦
      if x.emissions.failed < o.failures then
        { x with emissions := { x.emissions with failed := x.emissions.failed + 1 } }
      else x)
    fun x ↦ .done (if x.emissions.failed < o.failures then .error o.failure else .ok (o.style.thunk b))

/-- What the backend does when it emits. -/
def client (o : OwnBackend) (b : Binding World) :
    Client World Bench (Except CompileError (Thunk World)) :=
  .work (fun x ↦ { x with emissions := { x.emissions with emitted := x.emissions.emitted + 1 } })
    fun x ↦
      match x.emissions.pending with
      | none => o.deliver b
      | some (m, target) =>
        .work (fun x ↦ { x with emissions := { x.emissions with pending := none } }) fun _ ↦
          .request m target fun outcome ↦
            .work
              (fun x ↦ { x with emissions := { x.emissions with
                nested := some (outcome.map fun i ↦ i.method.method.name) } })
              fun _ ↦ o.deliver b

/-- The backend as one that uses the cache it emits for. -/
def emitter (o : OwnBackend) : Emitter World Bench := ⟨o.name, o.client⟩

theorem account_apply (f : Emissions → Emissions) (c : InvokerCache World) (x : Bench) :
    account f (c, x) = some ((), c, { x with emissions := f x.emissions }) := rfl

theorem get_apply {S : Type} (s : S) : (get : CompileM S S) s = some (s, s) := rfl

/-- What comes of the end of an emission. -/
theorem run_deliver (o : OwnBackend) (b : Binding World) (request : RequestOf World Bench)
    (c : InvokerCache World) (x : Bench) :
    (o.deliver b).run Note.ignore request (c, x) =
      if x.emissions.failed < o.failures then
        some (.error o.failure, c,
          { x with emissions := { x.emissions with failed := x.emissions.failed + 1 } })
      else some (.ok (o.style.thunk b), c, x) := by
  by_cases hfailed : x.emissions.failed < o.failures
  · simp [deliver, Client.run, Note.ignore, hfailed]
  · simp [deliver, Client.run, Note.ignore, hfailed]

/-- An emission is what comes of the client. -/
theorem emit_eq (o : OwnBackend) (request : RequestOf World Bench) (b : Binding World) :
    o.emit request b = (o.client b).run Note.ignore request := by
  funext ⟨c, x⟩
  unfold emit client
  simp only [bind_apply, account_apply, get_apply, Option.bind_some, Client.run, Note.ignore]
  cases hp : x.emissions.pending with
  | none =>
    simp only [bind_apply, get_apply, Option.bind_some, run_deliver]
    split <;> rfl
  | some pair =>
    obtain ⟨m, target⟩ := pair
    simp only [bind_apply, account_apply, get_apply, Option.bind_some, Client.run, Note.ignore]
    congr 1
    funext r
    obtain ⟨outcome, d, y⟩ := r
    simp only [account_apply, Option.bind_some, run_deliver]
    split <;> rfl

/-- The backend during a request made from an emission is the same as the one that can emit once. -/
theorem inner_compile_eq (o : OwnBackend) (m : MethodHandle World) (target : Option Target)
    (c : InvokerCache World) {x : Bench} (h : x.emissions.pending = none) :
    o.inner.compile m target (c, x) =
      (o.emitter.backend Note.ignore 1).compile m target (c, x) := by
  unfold Backend.compile
  cases Binding.make m target with
  | error e => rfl
  | ok b =>
    have hemit : o.inner.emit b (c, x) = (o.emitter.backend Note.ignore 1).emit b (c, x) := by
      show o.emit _ b (c, x) = (o.client b).run Note.ignore _ (c, x)
      rw [emit_eq]
      simp only [client, Client.run, Note.ignore, h, run_deliver]
    simp only [bind_apply]
    rw [hemit]
    rfl

/-- A request made from an emission, when no other is pending, is one to the backend that can emit
once. -/
theorem getOrCompile_inner_eq (o : OwnBackend) (m : MethodHandle World) (target : Option Target)
    (c : InvokerCache World) {x : Bench} (h : x.emissions.pending = none) :
    InvokerCache.getOrCompile o.inner m target (c, x) =
      InvokerCache.getOrCompile (o.emitter.backend Note.ignore 1) m target (c, x) := by
  simp only [InvokerCache.getOrCompile_eq, Cache.fill_eq]
  rw [inner_compile_eq]
  exact h

/-- The backend is one that uses the cache it emits for as a client, and emits at most once
meanwhile. -/
theorem backend_eq (o : OwnBackend) : o.backend = o.emitter.backend Note.ignore 2 := by
  show (⟨o.name, _⟩ : Backend World (InvokerCache World × Bench)) = ⟨o.name, _⟩
  congr 1
  funext b ⟨c, x⟩
  rw [emit_eq]
  show (o.client b).run _ _ (c, x) = (o.client b).run _ _ (c, x)
  unfold client
  simp only [Client.run, Note.ignore]
  cases hp : x.emissions.pending with
  | none => simp only [run_deliver]
  | some pair =>
    obtain ⟨m, target⟩ := pair
    simp only [Client.run, Note.ignore, run_deliver]
    rw [getOrCompile_inner_eq]
    rfl

end OwnBackend

/-- Every backend of a session is one that uses the cache it emits for as a client, and emits at most
once meanwhile. -/
theorem BackendChoice.exists_emitter (choice : BackendChoice) :
    ∃ p : Emitter World Bench, choice.backend = p.backend Note.ignore 2 := by
  cases choice with
  | portable => exact ⟨_, Emitter.backend_quiet _ (fun b ↦ .ok (Portable.thunk b)) 1⟩
  | machine =>
    have h : (Backend.machine : Backend World (InvokerCache World × Bench)) =
        ⟨BackendKind.machine.name, fun b ↦ pure (((Machine.generate b).map (Machine.thunk b)).mapError
          fun _ ↦ .codegen "Failed to define thunk")⟩ := by
      unfold Backend.machine
      congr 1
      funext b
      cases Machine.generate b <;> rfl
    exact ⟨_, h.trans (Emitter.backend_quiet _ _ 1)⟩
  | own o => exact ⟨o.emitter, o.backend_eq⟩

end Session

end Invocation
