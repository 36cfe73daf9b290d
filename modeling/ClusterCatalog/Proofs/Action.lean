import ClusterCatalog.Storage.Live
/-!
What the primitive actions do, one equation each, folds of actions that never fail, relations that
every run of an action respects, and relations between two runs of one action.
-/
namespace ClusterCatalog

variable {σ τ ε δ α β : Type}

theorem exists_of_bind_eq_ok {x : Except ε α} {f : α → Except ε β} {b : β} (h : (x >>= f) = .ok b) :
    ∃ a, x = .ok a ∧ f a = .ok b := by
  cases x with
  | error e => cases h
  | ok a => exact ⟨a, rfl, h⟩

theorem exists_of_map_eq_ok {x : Except ε α} {f : α → β} {b : β} (h : x.map f = .ok b) :
    ∃ a, x = .ok a ∧ f a = b := by
  cases x with
  | error e => cases h
  | ok a => exact ⟨a, rfl, Except.ok.inj h⟩

theorem eq_ok_of_toOption {ε α : Type} {x : Except ε α} {a : α} (h : x.toOption = some a) : x = .ok a := by
  cases x with
  | error e => cases h
  | ok b => exact congrArg _ (Option.some.inj h)

namespace Action

@[simp] theorem run_get (s : σ) : (get : Action σ ε σ).run s = (.ok s, s) := rfl

@[simp] theorem run_modify (f : σ → σ) (s : σ) :
    (modify f : Action σ ε PUnit).run s = (.ok (), f s) := rfl

@[simp] theorem run_ofExcept (r : Except ε α) (s : σ) : (ofExcept r).run s = (r, s) := rfl

@[simp] theorem run_attempt (a : Action σ ε α) (s : σ) :
    (a.attempt : Action σ δ (Except ε α)).run s = (.ok (a.run s).1, (a.run s).2) := rfl

@[simp] theorem run_within (part : σ → τ) (put : σ → τ → σ) (a : Action τ ε α) (s : σ) :
    (a.within part put).run s = ((a.run (part s)).1, put s (a.run (part s)).2) := rfl

@[simp] theorem run_relabel (f : ε → δ) (a : Action σ ε α) (s : σ) :
    (a.relabel f).run s = ((a.run s).1.mapError f, (a.run s).2) := rfl

theorem run_relabel_ok {a : Action σ ε α} {s t : σ} {x : α} (h : a.run s = (.ok x, t)) (f : ε → δ) :
    (a.relabel f).run s = (.ok x, t) := by
  rw [run_relabel, h]
  rfl

theorem run_relabel_error {a : Action σ ε α} {s t : σ} {e : ε} (h : a.run s = (.error e, t)) (f : ε → δ) :
    (a.relabel f).run s = (.error (f e), t) := by
  rw [run_relabel, h]
  rfl

theorem run_tryCatch (a : Action σ ε α) (handle : ε → Action σ ε α) (s : σ) :
    (tryCatch a handle).run s = match a.run s with
      | (.ok x, s) => (.ok x, s)
      | (.error e, s) => (handle e).run s := rfl

theorem exists_of_isOk {a : Action σ ε α} {s : σ} (h : (a.run s).1.isOk = true) : ∃ x t, a.run s = (.ok x, t) := by
  rcases ran : a.run s with ⟨e | x, t⟩
  · rw [ran] at h
    cases h
  · exact ⟨x, t, rfl⟩

theorem run_map (f : α → β) (a : Action σ ε α) (s : σ) :
    (f <$> a).run s = ((a.run s).1.map f, (a.run s).2) := by
  show (match a s with
    | (.ok x, s) => (.ok (f x), s)
    | (.error e, s) => (.error e, s)) = ((a s).1.map f, (a s).2)
  rcases a s with ⟨_ | _, _⟩ <;> rfl

theorem run_discard (a : Action σ ε α) (s : σ) :
    ((discard a : Action σ ε PUnit).run s).2 = (a.run s).2 := by
  show ((Functor.mapConst PUnit.unit a : Action σ ε PUnit).run s).2 = (a.run s).2
  rw [LawfulFunctor.map_const]
  exact congrArg Prod.snd (run_map _ a s)

theorem run_discard_ok {a : Action σ ε α} {s t : σ} {x : α} (h : a.run s = (.ok x, t)) :
    (discard a : Action σ ε PUnit).run s = (.ok (), t) := by
  show ((Functor.mapConst PUnit.unit a : Action σ ε PUnit).run s) = (.ok (), t)
  rw [LawfulFunctor.map_const]
  exact (run_map _ a s).trans (by rw [h]; rfl)

theorem run_discard_error {a : Action σ ε α} {s t : σ} {e : ε} (h : a.run s = (.error e, t)) :
    (discard a : Action σ ε PUnit).run s = (.error e, t) := by
  show ((Functor.mapConst PUnit.unit a : Action σ ε PUnit).run s) = (.error e, t)
  rw [LawfulFunctor.map_const]
  exact (run_map _ a s).trans (by rw [h]; rfl)

theorem discard_eq_ok {a : Action σ ε α} {s t : σ} (h : (discard a : Action σ ε PUnit).run s = (.ok (), t)) :
    ∃ x, a.run s = (.ok x, t) := by
  have mapped : (discard a : Action σ ε PUnit).run s = ((a.run s).1.map (Function.const α PUnit.unit), (a.run s).2) := by
    show (Functor.mapConst PUnit.unit a : Action σ ε PUnit).run s = _
    rw [LawfulFunctor.map_const]
    exact run_map _ a s
  obtain ⟨result, rfl⟩ := Prod.mk.inj (mapped.symm.trans h)
  obtain ⟨x, ok, -⟩ := exists_of_map_eq_ok result
  exact ⟨x, Prod.ext ok rfl⟩

theorem relabel_eq_ok {f : ε → δ} {a : Action σ ε α} {s t : σ} {x : α} (h : (a.relabel f).run s = (.ok x, t)) :
    a.run s = (.ok x, t) := by
  have restated : ((a.run s).1.mapError f, (a.run s).2) = (.ok x, t) := h
  rcases ran : a.run s with ⟨e | y, u⟩ <;> rw [ran] at restated <;> cases restated
  rfl

/-- A run of two actions that succeeds is two runs that succeed. -/
theorem run_bind_eq_ok {a : Action σ ε α} {f : α → Action σ ε β} {s t : σ} {y : β}
    (h : (a >>= f).run s = (.ok y, t)) : ∃ x u, a.run s = (.ok x, u) ∧ (f x).run u = (.ok y, t) := by
  rcases ran : a.run s with ⟨_ | x, u⟩
  · rw [run_bind_error ran] at h
    cases h
  · rw [run_bind_ok ran] at h
    exact ⟨x, u, rfl, h⟩

/-- A fold of actions none of which fails changes the state as a plain fold does. -/
theorem run_foldlM {f : β → α → Action σ ε β} {g : σ → α → σ}
    (total : ∀ b a s, ∃ b', (f b a).run s = (.ok b', g s a)) (l : List α) (b : β) (s : σ) :
    ∃ b', (l.foldlM f b).run s = (.ok b', l.foldl g s) := by
  induction l generalizing b s with
  | nil => exact ⟨b, rfl⟩
  | cons a l ih =>
    obtain ⟨b', step⟩ := total b a s
    obtain ⟨b'', rest⟩ := ih b' (g s a)
    exact ⟨b'', by rw [List.foldlM_cons, run_bind_ok step, rest, List.foldl_cons]⟩

/-- Every run of the action goes from a state to a related one, whether it succeeds or fails. -/
def Respects (R : σ → σ → Prop) (a : Action σ ε α) : Prop := ∀ s, R s (a.run s).2

structure Composes (R : σ → σ → Prop) : Prop where
  refl (s : σ) : R s s
  trans {s t u : σ} (h : R s t) (g : R t u) : R s u

section Respects

variable {R : σ → σ → Prop}

theorem respects_still {a : Action σ ε α} (composes : Composes R) (h : ∀ s, (a.run s).2 = s) :
    a.Respects R := fun s => by
  rw [h]
  exact composes.refl s

theorem respects_pure (composes : Composes R) (x : α) : (pure x : Action σ ε α).Respects R :=
  respects_still composes fun _ => rfl

theorem respects_get (composes : Composes R) : (get : Action σ ε σ).Respects R :=
  respects_still composes fun _ => rfl

theorem respects_throw (composes : Composes R) (e : ε) : (throw e : Action σ ε α).Respects R :=
  respects_still composes fun _ => rfl

theorem Respects.bind (composes : Composes R) {a : Action σ ε α} {f : α → Action σ ε β}
    (h : a.Respects R) (next : ∀ x, (f x).Respects R) : (a >>= f).Respects R := by
  intro s
  have first := h s
  cases ran : a.run s with
  | mk result t =>
    rw [ran] at first
    cases result with
    | error e =>
      rw [run_bind_error ran]
      exact first
    | ok x =>
      rw [run_bind_ok ran]
      exact composes.trans first (next x t)

theorem Respects.attempt {a : Action σ ε α} (h : a.Respects R) :
    (a.attempt : Action σ δ (Except ε α)).Respects R := fun s => h s

theorem Respects.relabel {a : Action σ ε α} (h : a.Respects R) (f : ε → δ) : (a.relabel f).Respects R :=
  fun s => h s

theorem Respects.tryCatch (composes : Composes R) {a : Action σ ε α} {handle : ε → Action σ ε α}
    (h : a.Respects R) (caught : ∀ e, (handle e).Respects R) : (tryCatch a handle).Respects R := by
  intro s
  have first := h s
  rw [run_tryCatch]
  cases ran : a.run s with
  | mk result t =>
    rw [ran] at first
    cases result with
    | ok x => exact first
    | error e => exact composes.trans first (caught e t)

theorem Respects.map {a : Action σ ε α} (h : a.Respects R) (f : α → β) : (f <$> a).Respects R := by
  intro s
  rw [run_map]
  exact h s

theorem Respects.discard {a : Action σ ε α} (h : a.Respects R) :
    (discard a : Action σ ε PUnit).Respects R := by
  intro s
  rw [run_discard]
  exact h s

theorem respects_foldlM (composes : Composes R) {f : β → α → Action σ ε β} {l : List α}
    (h : ∀ b, ∀ a ∈ l, (f b a).Respects R) (b : β) : (l.foldlM f b).Respects R := by
  induction l generalizing b with
  | nil => exact respects_pure composes b
  | cons a l ih =>
    rw [List.foldlM_cons]
    refine (h b a List.mem_cons_self).bind composes fun b' => ?_
    exact ih (fun b a' mem => h b a' (List.mem_cons_of_mem a mem)) b'

theorem respects_forM (composes : Composes R) {f : α → Action σ ε PUnit} {l : List α}
    (h : ∀ a ∈ l, (f a).Respects R) : (l.forM f).Respects R := by
  induction l with
  | nil => exact respects_pure composes _
  | cons a l ih =>
    refine Respects.bind (f := fun _ => l.forM f) composes (h a List.mem_cons_self) fun _ => ?_
    exact ih fun a' mem => h a' (List.mem_cons_of_mem a mem)

end Respects

def Lockstep (R : σ → σ → Prop) (a : Action σ ε α) : Prop :=
  ∀ s t, R s t → (a.run t).1 = (a.run s).1 ∧ R (a.run s).2 (a.run t).2

section Lockstep

variable {R : σ → σ → Prop}

theorem lockstep_still {a : Action σ ε α} {f : σ → Except ε α} (still : ∀ s, a.run s = (f s, s))
    (same : ∀ s t, R s t → f t = f s) : a.Lockstep R := by
  intro s t related
  rw [still, still]
  exact ⟨same s t related, related⟩

theorem lockstep_pure (x : α) : (pure x : Action σ ε α).Lockstep R := fun _ _ related => ⟨rfl, related⟩

theorem lockstep_throw (e : ε) : (throw e : Action σ ε α).Lockstep R := fun _ _ related => ⟨rfl, related⟩

theorem Lockstep.bind {a : Action σ ε α} {f : α → Action σ ε β} (h : a.Lockstep R) (next : ∀ x, (f x).Lockstep R) :
    (a >>= f).Lockstep R := by
  intro s t related
  obtain ⟨result, related'⟩ := h s t related
  rcases ran : a.run s with ⟨r, s'⟩
  rcases ran' : a.run t with ⟨r', t'⟩
  rw [ran, ran'] at result related'
  obtain rfl : r' = r := result
  cases r' with
  | error e =>
    rw [run_bind_error ran, run_bind_error ran']
    exact ⟨rfl, related'⟩
  | ok x =>
    rw [run_bind_ok ran, run_bind_ok ran']
    exact next x s' t' related'

theorem Lockstep.tryCatch {a : Action σ ε α} {handle : ε → Action σ ε α} (h : a.Lockstep R)
    (caught : ∀ e, (handle e).Lockstep R) : (tryCatch a handle).Lockstep R := by
  intro s t related
  obtain ⟨result, related'⟩ := h s t related
  rw [run_tryCatch, run_tryCatch]
  rcases ran : a.run s with ⟨r, s'⟩
  rcases ran' : a.run t with ⟨r', t'⟩
  rw [ran, ran'] at result related'
  obtain rfl : r' = r := result
  cases r' with
  | error e => exact caught e s' t' related'
  | ok x => exact ⟨rfl, related'⟩

theorem Lockstep.map {a : Action σ ε α} (h : a.Lockstep R) (f : α → β) : (f <$> a).Lockstep R := by
  intro s t related
  obtain ⟨result, related'⟩ := h s t related
  rw [run_map, run_map, result]
  exact ⟨rfl, related'⟩

end Lockstep

end Action

namespace Stored

@[simp] theorem run_getView (s : Stored σ) : (getView : Action (Stored σ) ε σ).run s = (.ok s.view, s) := rfl

theorem state_getView (s : Stored σ) : ((getView : Action (Stored σ) ε σ).run s).2 = s := rfl

@[simp] theorem run_modifyView (f : σ → σ) (s : Stored σ) :
    (modifyView f : Action (Stored σ) ε Unit).run s = (.ok (), { s with view := f s.view }) := rfl

@[simp] theorem run_onStore (a : Action Database ε α) (s : Stored σ) :
    (onStore a).run s = ((a.run s.db).1, { s with db := (a.run s.db).2 }) := rfl

theorem run_onStore_bind_ok {a : Action Database ε α} {s : Stored σ} {x : α} {db : Database}
    (h : a.run s.db = (.ok x, db)) (f : α → Action (Stored σ) ε β) :
    (onStore a >>= f).run s = (f x).run { s with db } :=
  Action.run_bind_ok (by rw [run_onStore, h]) f

theorem run_onStore_bind_error {a : Action Database ε α} {s : Stored σ} {e : ε} {db : Database}
    (h : a.run s.db = (.error e, db)) (f : α → Action (Stored σ) ε β) :
    (onStore a >>= f).run s = (.error e, { s with db }) :=
  Action.run_bind_error (by rw [run_onStore, h]) f

end Stored

end ClusterCatalog
