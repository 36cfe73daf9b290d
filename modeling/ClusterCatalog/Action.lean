/-!
Computations on a state that may fail. What a failing one did to the state before stays done, so
that an operation which shall change nothing on failure has to be written that way.
-/
namespace ClusterCatalog

def Action (σ ε α : Type) : Type := σ → Except ε α × σ

namespace Action

variable {σ τ ε δ α β : Type}

def run (a : Action σ ε α) (s : σ) : Except ε α × σ := a s

def state (a : Action σ ε α) (s : σ) : σ := (a s).2

protected def bind (a : Action σ ε α) (f : α → Action σ ε β) : Action σ ε β := fun s =>
  match a s with
  | (.ok x, s) => f x s
  | (.error e, s) => (.error e, s)

instance : Monad (Action σ ε) where
  pure x := fun s => (.ok x, s)
  bind := Action.bind

instance : MonadStateOf σ (Action σ ε) where
  get := fun s => (.ok s, s)
  set s := fun _ => (.ok (), s)
  modifyGet f := fun s => (.ok (f s).1, (f s).2)

instance : MonadExceptOf ε (Action σ ε) where
  throw e := fun s => (.error e, s)
  tryCatch a handle := fun s =>
    match a s with
    | (.ok x, s) => (.ok x, s)
    | (.error e, s) => handle e s

def ofExcept (r : Except ε α) : Action σ ε α := fun s => (r, s)

def attempt (a : Action σ ε α) : Action σ δ (Except ε α) := fun s => (.ok (a s).1, (a s).2)

def within (part : σ → τ) (put : σ → τ → σ) (a : Action τ ε α) : Action σ ε α := fun s =>
  ((a (part s)).1, put s (a (part s)).2)

def relabel (f : ε → δ) (a : Action σ ε α) : Action σ δ α := fun s => ((a s).1.mapError f, (a s).2)

@[simp] theorem run_pure (x : α) (s : σ) : (pure x : Action σ ε α).run s = (.ok x, s) := rfl

theorem run_bind (a : Action σ ε α) (f : α → Action σ ε β) (s : σ) :
    (a >>= f).run s = match a.run s with
      | (.ok x, s) => (f x).run s
      | (.error e, s) => (.error e, s) := rfl

theorem run_bind_ok {a : Action σ ε α} {s t : σ} {x : α} (h : a.run s = (.ok x, t))
    (f : α → Action σ ε β) : (a >>= f).run s = (f x).run t := by
  rw [run_bind, h]

theorem run_bind_error {a : Action σ ε α} {s t : σ} {e : ε} (h : a.run s = (.error e, t))
    (f : α → Action σ ε β) : (a >>= f).run s = (.error e, t) := by
  rw [run_bind, h]

theorem pure_bind_eq (x : α) (f : α → Action σ ε β) : (pure x >>= f) = f x := rfl

theorem map_id_eq (a : Action σ ε α) : id <$> a = a := by
  funext s
  show (match a s with
    | (.ok x, s) => (.ok x, s)
    | (.error e, s) => (.error e, s)) = a s
  rcases a s with ⟨_ | _, _⟩ <;> rfl

theorem bind_assoc_eq {γ : Type} (a : Action σ ε α) (f : α → Action σ ε β) (g : β → Action σ ε γ) :
    (a >>= f >>= g) = a >>= fun x => f x >>= g := by
  funext s
  show Action.bind (Action.bind a f) g s = Action.bind a (fun x => Action.bind (f x) g) s
  unfold Action.bind
  rcases a s with ⟨_ | _, _⟩ <;> rfl

instance : LawfulMonad (Action σ ε) := LawfulMonad.mk' _ map_id_eq pure_bind_eq bind_assoc_eq

end Action

end ClusterCatalog
