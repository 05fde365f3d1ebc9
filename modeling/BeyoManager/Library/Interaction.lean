import Mathlib.Logic.Relation

/-! # Programs that may die at every question

A routine has variables, may throw, and puts questions to the world; what the world answers is
not known beforehand. At every question the process may die: its variables are lost, and what the
world has kept is all that the next process finds. A weakest precondition speaks of the three
ways in which a routine ends, and a history is any number of routines, one after the other.
-/

namespace Interaction

variable {Q : Type} {R : Q → Type} {W σ τ ε α β : Type}

/-- A program: it is done, or it asks a question and goes on with the answer. -/
inductive Program (Q : Type) (R : Q → Type) (α : Type)
  | done (a : α)
  | ask (q : Q) (next : R q → Program Q R α)

/-- How a world answers questions, and what it may keep of a question at which the process dies. -/
structure Setting (Q : Type) (R : Q → Type) (W : Type) where
  answers : W → (q : Q) → R q → W → Prop
  dies : W → Q → W → Prop

namespace Program

def bind (p : Program Q R α) (f : α → Program Q R β) : Program Q R β :=
  match p with
  | .done a => f a
  | .ask q next => .ask q fun r => (next r).bind f

variable (setting : Setting Q R W)

/-- A program runs from one world to another; it ends with no value when the process dies. -/
inductive Runs : Program Q R α → W → Option α → W → Prop
  | done (a : α) (w : W) : Runs (.done a) w (some a) w
  | dies {q : Q} {next : R q → Program Q R α} {w w' : W} (h : setting.dies w q w') :
      Runs (.ask q next) w none w'
  | goesOn {q : Q} {next : R q → Program Q R α} {w w' w'' : W} {r : R q} {a : Option α}
      (h : setting.answers w q r w') (hrun : Runs (next r) w' a w'') :
      Runs (.ask q next) w a w''

/-- Whatever the world answers, the program ends as `post` says, or dies as `stop` says. -/
def wp (stop : W → Prop) (post : α → W → Prop) : Program Q R α → W → Prop
  | .done a, w => post a w
  | .ask q next, w => (∀ w', setting.dies w q w' → stop w') ∧
      ∀ r w', setting.answers w q r w' → (next r).wp stop post w'

variable {setting} {stop : W → Prop} {post post' : α → W → Prop} {w : W}

theorem wp_bind {p : Program Q R α} {f : α → Program Q R β} {post : β → W → Prop} :
    (p.bind f).wp setting stop post w ↔
      p.wp setting stop (fun a w' => (f a).wp setting stop post w') w := by
  induction p generalizing w with
  | done a => rfl
  | ask q next ih =>
    refine and_congr Iff.rfl ?_
    constructor
    · intro h r w' hr
      exact (ih r).mp (h r w' hr)
    · intro h r w' hr
      exact (ih r).mpr (h r w' hr)

theorem wp_mono {p : Program Q R α} (h : p.wp setting stop post w)
    (hpost : ∀ a w', post a w' → post' a w') : p.wp setting stop post' w := by
  induction p generalizing w with
  | done a => exact hpost a w h
  | ask q next ih =>
    obtain ⟨hstop, hnext⟩ := h
    exact ⟨hstop, fun r w' hr => ih r (hnext r w' hr)⟩

/-- The weakest precondition speaks of exactly the runs. -/
theorem wp_iff {p : Program Q R α} : p.wp setting stop post w ↔
    (∀ a w', p.Runs setting w (some a) w' → post a w') ∧
      ∀ w', p.Runs setting w none w' → stop w' := by
  induction p generalizing w with
  | done a =>
    constructor
    · intro h
      constructor
      · rintro a w' (_ | _ | _)
        exact h
      · rintro w' (_ | _ | _)
    · rintro ⟨h, -⟩
      exact h a w (.done a w)
  | ask q next ih =>
    constructor
    · rintro ⟨hstop, hnext⟩
      constructor
      · rintro a w' (_ | _ | ⟨hr, hrun⟩)
        exact ((ih _).mp (hnext _ _ hr)).1 a w' hrun
      · rintro w' (_ | h | ⟨hr, hrun⟩)
        · exact hstop w' h
        · exact ((ih _).mp (hnext _ _ hr)).2 w' hrun
    · rintro ⟨hpost, hstop⟩
      refine ⟨fun w' h => hstop w' (.dies h), fun r w' hr => (ih r).mpr ⟨?_, ?_⟩⟩
      · exact fun a w'' hrun => hpost a w'' (.goesOn hr hrun)
      · exact fun w'' hrun => hstop w'' (.goesOn hr hrun)

end Program

section Histories

variable {ι : Type} (setting : Setting Q R W) (program : ι → Program Q R α)
  (outside : W → W → Prop)

/-- One program after another, each of them to its end or to its death, and between them what the
world does without them. -/
def Reaches : W → W → Prop :=
  Relation.ReflTransGen fun w w' => outside w w' ∨ ∃ i a, (program i).Runs setting w a w'

variable {setting program outside}

theorem Reaches.invariant {I : W → Prop} {w w' : W}
    (hprogram : ∀ i w, I w → (program i).wp setting I (fun _ => I) w)
    (houtside : ∀ w w', outside w w' → I w → I w')
    (h : Reaches setting program outside w w') (hw : I w) : I w' := by
  induction h with
  | refl => exact hw
  | tail _ hstep ih =>
    rcases hstep with hstep | ⟨i, a, hrun⟩
    · exact houtside _ _ hstep ih
    · have hwp := Program.wp_iff.mp (hprogram i _ ih)
      cases a with
      | none => exact hwp.2 _ hrun
      | some a => exact hwp.1 a _ hrun

end Histories

/-- A program with variables that may throw; an exception leaves the variables as they are. -/
def Routine (Q : Type) (R : Q → Type) (σ ε α : Type) := σ → Program Q R (Except ε α × σ)

namespace Routine

/-- What follows when a routine has ended. -/
def andThen (f : α → Routine Q R σ ε β) : Except ε α × σ → Program Q R (Except ε β × σ)
  | (.ok a, s) => f a s
  | (.error e, s) => .done (.error e, s)

/-- What follows when a routine has thrown. -/
def orElse (handle : ε → Routine Q R σ ε α) : Except ε α × σ → Program Q R (Except ε α × σ)
  | (.ok a, s) => .done (.ok a, s)
  | (.error e, s) => handle e s

instance : Monad (Routine Q R σ ε) where
  pure a s := .done (.ok a, s)
  bind m f s := (m s).bind (andThen f)

theorem bind_done (m : Program Q R (Except ε α × σ)) :
    m.bind (andThen fun a s => .done (.ok a, s)) = m := by
  induction m with
  | done x => rcases x with ⟨_ | _, _⟩ <;> rfl
  | ask q next ih => exact congrArg (Program.ask q) (funext ih)

theorem bind_bind (m : Program Q R (Except ε α × σ)) (f : α → Routine Q R σ ε β)
    (g : β → Routine Q R σ ε τ) :
    (m.bind (andThen f)).bind (andThen g) =
      m.bind (andThen fun a s => (f a s).bind (andThen g)) := by
  induction m with
  | done x => rcases x with ⟨_ | _, _⟩ <;> rfl
  | ask q next ih => exact congrArg (Program.ask q) (funext ih)

instance : LawfulMonad (Routine Q R σ ε) := LawfulMonad.mk' _
  (fun m => funext fun s => bind_done (m s))
  (fun _ _ => rfl)
  (fun m f g => funext fun s => bind_bind (m s) f g)

instance : MonadExceptOf ε (Routine Q R σ ε) where
  throw e s := .done (.error e, s)
  tryCatch m handle s := (m s).bind (orElse handle)

instance : MonadStateOf σ (Routine Q R σ ε) where
  get s := .done (.ok s, s)
  set s' _ := .done (.ok ⟨⟩, s')
  modifyGet f s := .done (.ok (f s).1, (f s).2)

/-- Put a question to the world. -/
def ask (q : Q) : Routine Q R σ ε (R q) := fun s => .ask q fun r => .done (.ok r, s)

/-- What is left of the variables when a part of them goes into a routine. -/
def putBack (set : τ → σ → σ) (s : σ) : Except ε α × τ → Except ε α × σ
  | (x, t) => (x, set t s)

/-- Run a routine on a part of the variables. -/
def within (get : σ → τ) (set : τ → σ → σ) (m : Routine Q R τ ε α) : Routine Q R σ ε α :=
  fun s => (m (get s)).bind fun x => .done (putBack set s x)

/-- The three ways in which a routine ends, as a condition on programs. -/
def ends (fail : ε → σ → W → Prop) (post : α → σ → W → Prop) : Except ε α × σ → W → Prop
  | (.ok a, s), w => post a s w
  | (.error e, s), w => fail e s w

variable (setting : Setting Q R W) (stop : W → Prop) (fail : ε → σ → W → Prop)

/-- Whatever the world answers, the routine returns as `post` says, throws as `fail` says or dies
as `stop` says. -/
def wp (post : α → σ → W → Prop) (m : Routine Q R σ ε α) (s : σ) (w : W) : Prop :=
  (m s).wp setting stop (ends fail post) w

variable {setting stop fail} {post post' : α → σ → W → Prop} {s : σ} {w : W}

@[simp] theorem wp_pure {a : α} :
    wp setting stop fail post (pure a) s w ↔ post a s w := Iff.rfl

@[simp] theorem wp_bind {m : Routine Q R σ ε α} {f : α → Routine Q R σ ε β}
    {post : β → σ → W → Prop} : wp setting stop fail post (m >>= f) s w ↔
      wp setting stop fail (fun a s' w' => wp setting stop fail post (f a) s' w') m s w := by
  refine Program.wp_bind.trans (Iff.of_eq ?_)
  refine congrArg (fun p => (m s).wp setting stop p w) (funext fun x => funext fun w' => ?_)
  obtain ⟨_ | _, _⟩ := x <;> rfl

@[simp] theorem wp_throw {e : ε} :
    wp setting stop fail post (throw e : Routine Q R σ ε α) s w ↔ fail e s w := Iff.rfl

theorem wp_tryCatch {m : Routine Q R σ ε α} {handle : ε → Routine Q R σ ε α} :
    wp setting stop fail post (tryCatch m handle) s w ↔
      wp setting stop (fun e s' w' => wp setting stop fail post (handle e) s' w') post m s w := by
  refine Program.wp_bind.trans (Iff.of_eq ?_)
  refine congrArg (fun p => (m s).wp setting stop p w) (funext fun x => funext fun w' => ?_)
  obtain ⟨_ | _, _⟩ := x <;> rfl

@[simp] theorem wp_get {post : σ → σ → W → Prop} :
    wp setting stop fail post (get : Routine Q R σ ε σ) s w ↔ post s s w := Iff.rfl

@[simp] theorem wp_set {s' : σ} {post : PUnit → σ → W → Prop} :
    wp setting stop fail post (set s' : Routine Q R σ ε PUnit) s w ↔ post ⟨⟩ s' w := Iff.rfl

@[simp] theorem wp_modify {f : σ → σ} {post : PUnit → σ → W → Prop} :
    wp setting stop fail post (modify f : Routine Q R σ ε PUnit) s w ↔ post ⟨⟩ (f s) w := Iff.rfl

theorem wp_ask {q : Q} {post : R q → σ → W → Prop} :
    wp setting stop fail post (ask q : Routine Q R σ ε (R q)) s w ↔
      (∀ w', setting.dies w q w' → stop w') ∧
        ∀ r w', setting.answers w q r w' → post r s w' := Iff.rfl

theorem wp_within {get : σ → τ} {set : τ → σ → σ} {m : Routine Q R τ ε α} :
    wp setting stop fail post (within get set m) s w ↔
      wp setting stop (fun e t w' => fail e (set t s) w') (fun a t w' => post a (set t s) w')
        m (get s) w := by
  refine Program.wp_bind.trans (Iff.of_eq ?_)
  refine congrArg (fun p => (m (get s)).wp setting stop p w) (funext fun x => funext fun w' => ?_)
  obtain ⟨_ | _, _⟩ := x <;> rfl

theorem wp_mono {fail' : ε → σ → W → Prop} {m : Routine Q R σ ε α}
    (h : wp setting stop fail post m s w) (hpost : ∀ a s' w', post a s' w' → post' a s' w')
    (hfail : ∀ e s' w', fail e s' w' → fail' e s' w') :
    wp setting stop fail' post' m s w := by
  refine Program.wp_mono h ?_
  rintro ⟨_ | a, s'⟩ w' h
  · exact hfail _ s' w' h
  · exact hpost a s' w' h

theorem wp_forM {I : List β → σ → W → Prop} {l : List β} {body : β → Routine Q R σ ε PUnit}
    (hbody : ∀ x ∈ l, ∀ before s w, I before s w →
      wp setting stop fail (fun _ => I (before ++ [x])) (body x) s w)
    (h : I [] s w) : wp setting stop fail (fun _ => I l) (forM l body) s w := by
  suffices hall : ∀ before s w, I before s w →
      wp setting stop fail (fun _ => I (before ++ l)) (forM l body) s w from hall [] s w h
  clear h
  induction l with
  | nil =>
    intro before s w h
    rwa [List.append_nil]
  | cons x l ih =>
    intro before s w h
    rw [List.forM_cons, wp_bind]
    refine wp_mono (hbody x List.mem_cons_self before s w h) ?_ fun _ _ _ h => h
    intro _ s' w' h'
    rw [List.append_cons]
    exact ih (fun y hy => hbody y (List.mem_cons_of_mem x hy)) _ s' w' h'

theorem wp_mapM {I : σ → W → Prop} {l : List β} {body : β → Routine Q R σ ε α}
    (hbody : ∀ x ∈ l, ∀ s w, I s w → wp setting stop fail (fun _ => I) (body x) s w)
    (h : I s w) : wp setting stop fail (fun _ => I) (l.mapM body) s w := by
  induction l generalizing s w with
  | nil => exact h
  | cons x l ih =>
    rw [List.mapM_cons, wp_bind]
    refine wp_mono (hbody x List.mem_cons_self s w h) ?_ fun _ _ _ h => h
    intro y s' w' h'
    rw [wp_bind]
    exact ih (fun z hz => hbody z (List.mem_cons_of_mem x hz)) h'

end Routine

end Interaction
