import ClusterCatalog.Sync.Install
/-!
Activities: computations that wait, now and then, for an answer of the authority or for an install.
While one waits, others may change the state, so what it goes on with is the state of that moment.
-/
namespace ClusterCatalog.Sync

inductive Request where
  | ask (q : Question)
  | install (snapshot : Snapshot)

def Request.Response : Request → Type
  | .ask q => Reply q
  | .install _ => Except InstallError ResyncReport

inductive Progress (σ α : Type) where
  | finished (result : α) (s : σ)
  | waiting (r : Request) (s : σ) (resume : r.Response → σ → Progress σ α)

/-- An activity runs until it ends or has to wait. -/
def Activity (σ α : Type) : Type := σ → Progress σ α

variable {σ ε α β : Type}

namespace Progress

def bind (f : α → Activity σ β) : Progress σ α → Progress σ β
  | .finished a s => f a s
  | .waiting r s resume => .waiting r s fun response s => (resume response s).bind f

def state : Progress σ α → σ
  | .finished _ s => s
  | .waiting _ s _ => s

def complete (respond : (r : Request) → σ → r.Response × σ) : Progress σ α → α × σ
  | .finished a s => (a, s)
  | .waiting r s resume => (resume (respond r s).1 (respond r s).2).complete respond

@[simp] theorem bind_finished (f : α → Activity σ β) (a : α) (s : σ) :
    (finished a s).bind f = f a s := rfl

theorem bind_pure (p : Progress σ α) : p.bind finished = p := by
  induction p with
  | finished a s => rfl
  | waiting r s resume ih => simp only [bind, ih]

theorem bind_assoc {γ : Type} (p : Progress σ α) (f : α → Activity σ β) (g : β → Activity σ γ) :
    (p.bind f).bind g = p.bind fun a s => (f a s).bind g := by
  induction p with
  | finished a s => rfl
  | waiting r s resume ih => simp only [bind, ih]

theorem complete_bind (respond : (r : Request) → σ → r.Response × σ) (p : Progress σ α)
    (f : α → Activity σ β) :
    (p.bind f).complete respond =
      (f (p.complete respond).1 (p.complete respond).2).complete respond := by
  induction p with
  | finished a s => rfl
  | waiting r s resume ih => exact ih (respond r s).1 (respond r s).2

end Progress

namespace Activity

instance : Monad (Activity σ) where
  pure a := fun s => .finished a s
  bind x f := fun s => (x s).bind f

instance : MonadStateOf σ (Activity σ) where
  get := fun s => .finished s s
  set s := fun _ => .finished () s
  modifyGet f := fun s => .finished (f s).1 (f s).2

theorem map_id_eq (x : Activity σ α) : id <$> x = x := by
  funext s
  exact Progress.bind_pure (x s)

theorem bind_assoc_eq {γ : Type} (x : Activity σ α) (f : α → Activity σ β) (g : β → Activity σ γ) :
    (x >>= f >>= g) = x >>= fun a => f a >>= g := by
  funext s
  exact Progress.bind_assoc (x s) f g

instance : LawfulMonad (Activity σ) := LawfulMonad.mk' _ map_id_eq (fun _ _ => rfl) bind_assoc_eq

def ask (q : Question) : Activity σ (Reply q) := fun s =>
  .waiting (.ask q) s fun reply s => .finished reply s

def install (snapshot : Snapshot) : Activity σ (Except InstallError ResyncReport) := fun s =>
  .waiting (.install snapshot) s fun result s => .finished result s

def act (a : Action σ ε α) : Activity σ (Except ε α) := fun s => .finished (a s).1 (a s).2

end Activity

end ClusterCatalog.Sync
