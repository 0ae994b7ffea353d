import Mathlib.Logic.Relation

/-!
# Stateful actions with exceptions and undefined behaviour

An action reads and writes a state and then returns, throws, or runs into
undefined behaviour.  Throwing does not roll the state back: what the action
did before it threw stays done.  Undefined behaviour cannot be caught.

The rules below are about relations between the state before and the state
after an action, whatever way it ends.
-/

namespace Rc2Compute

/-- How an action ends. -/
inductive Outcome (ε α : Type) where
  | returned (value : α)
  | threw (error : ε)
  | undefined
deriving DecidableEq, Repr

/-- An action on states `σ` with exceptions `ε` and result `α`. -/
def Act (σ ε α : Type) : Type :=
  σ → Outcome ε α × σ

namespace Act

variable {σ ε α β : Type}

def bind (x : Act σ ε α) (f : α → Act σ ε β) : Act σ ε β := fun s =>
  match x s with
  | (.returned a, s') => f a s'
  | (.threw e, s') => (.threw e, s')
  | (.undefined, s') => (.undefined, s')

instance : Monad (Act σ ε) where
  pure a := fun s => (.returned a, s)
  bind := bind

/-- Raise an exception. -/
def throw (e : ε) : Act σ ε α := fun s => (.threw e, s)

/-- `if (c) throw e;` -/
def throwIf (c : Prop) [Decidable c] (e : ε) : Act σ ε Unit := fun s =>
  if c then (.threw e, s) else (.returned (), s)

/-- Undefined behaviour, such as a null pointer dereferenced. -/
def undefined : Act σ ε α := fun s => (.undefined, s)

def get : Act σ ε σ := fun s => (.returned s, s)

def modify (f : σ → σ) : Act σ ε Unit := fun s => (.returned (), f s)

/-- `try x catch handler`. -/
def tryCatch (x : Act σ ε α) (handler : ε → Act σ ε α) : Act σ ε α := fun s =>
  match x s with
  | (.threw e, s') => handler e s'
  | r => r

/-- Run `x`, then `f` on the state however `x` ended, as a destructor does. -/
def ensuring (x : Act σ ε α) (f : σ → σ) : Act σ ε α := fun s =>
  ((x s).1, f (x s).2)

/-- One action for every element of a list, in order. -/
def forEach : List α → (α → Act σ ε Unit) → Act σ ε Unit
  | [], _ => pure ()
  | a :: as, f => do
      f a
      forEach as f

/-- One action for every element of a list, in order, and their results. -/
def mapEach : List α → (α → Act σ ε β) → Act σ ε (List β)
  | [], _ => pure []
  | a :: as, f => do
      let b ← f a
      let bs ← mapEach as f
      pure (b :: bs)

/-! ## Running an action -/

@[simp] theorem pure_apply (a : α) (s : σ) :
    (pure a : Act σ ε α) s = (.returned a, s) := rfl

theorem bind_apply (x : Act σ ε α) (f : α → Act σ ε β) (s : σ) :
    (x >>= f) s =
      match x s with
      | (.returned a, s') => f a s'
      | (.threw e, s') => (.threw e, s')
      | (.undefined, s') => (.undefined, s') := rfl

theorem bind_apply_returned {x : Act σ ε α} {f : α → Act σ ε β} {s s' : σ}
    {a : α} (h : x s = (.returned a, s')) : (x >>= f) s = f a s' := by
  rw [bind_apply, h]

theorem bind_apply_threw {x : Act σ ε α} {f : α → Act σ ε β} {s s' : σ}
    {e : ε} (h : x s = (.threw e, s')) : (x >>= f) s = (.threw e, s') := by
  rw [bind_apply, h]

theorem bind_apply_undefined {x : Act σ ε α} {f : α → Act σ ε β} {s s' : σ}
    (h : x s = (.undefined, s')) : (x >>= f) s = (.undefined, s') := by
  rw [bind_apply, h]

@[simp] theorem throw_apply (e : ε) (s : σ) :
    (throw e : Act σ ε α) s = (.threw e, s) := rfl

theorem throwIf_apply_of_not {c : Prop} [Decidable c] (h : ¬c) (e : ε)
    (s : σ) : (throwIf c e : Act σ ε Unit) s = (.returned (), s) :=
  if_neg h

@[simp] theorem undefined_apply (s : σ) :
    (undefined : Act σ ε α) s = (.undefined, s) := rfl

@[simp] theorem get_apply (s : σ) :
    (get : Act σ ε σ) s = (.returned s, s) := rfl

@[simp] theorem modify_apply (f : σ → σ) (s : σ) :
    (modify f : Act σ ε Unit) s = (.returned (), f s) := rfl

theorem tryCatch_apply (x : Act σ ε α) (handler : ε → Act σ ε α) (s : σ) :
    tryCatch x handler s =
      match x s with
      | (.threw e, s') => handler e s'
      | r => r := rfl

/-- A handler that only swallows the exception leaves the state alone. -/
theorem tryCatch_pure_state (x : Act σ ε α) (a : α) (s : σ) :
    (tryCatch x (fun _ => pure a) s).2 = (x s).2 := by
  rw [tryCatch_apply]
  match h : x s with
  | (.returned _, _) => rfl
  | (.threw _, _) => rfl
  | (.undefined, _) => rfl

theorem tryCatch_apply_returned {x : Act σ ε α} {handler : ε → Act σ ε α}
    {s s' : σ} {a : α} (h : x s = (.returned a, s')) :
    tryCatch x handler s = (.returned a, s') := by
  rw [tryCatch_apply, h]

@[simp] theorem ensuring_apply (x : Act σ ε α) (f : σ → σ) (s : σ) :
    ensuring x f s = ((x s).1, f (x s).2) := rfl

@[simp] theorem forEach_nil (f : α → Act σ ε Unit) (s : σ) :
    forEach [] f s = (.returned (), s) := rfl

theorem forEach_cons (a : α) (as : List α) (f : α → Act σ ε Unit) :
    forEach (a :: as) f = (f a >>= fun _ => forEach as f) := rfl

theorem mapEach_cons (a : α) (as : List α) (f : α → Act σ ε β) :
    mapEach (a :: as) f = (f a >>= fun b => mapEach as f >>= fun bs =>
      pure (b :: bs)) := rfl

theorem bind_assoc {γ : Type} (x : Act σ ε α) (f : α → Act σ ε β)
    (g : β → Act σ ε γ) :
    (x >>= f >>= g) = (x >>= fun a => f a >>= g) := by
  funext s
  rw [bind_apply, bind_apply, bind_apply]
  match x s with
  | (.returned _, _) => rfl
  | (.threw _, _) => rfl
  | (.undefined, _) => rfl

theorem bind_pure (x : Act σ ε α) : (x >>= pure) = x := by
  funext s
  rw [bind_apply]
  match x s with
  | (.returned _, _) => rfl
  | (.threw _, _) => rfl
  | (.undefined, _) => rfl

/-- A loop that does something with each result. -/
theorem mapEach_bind_pure {γ : Type} (as : List α) (g : α → β)
    (f : β → Act σ ε γ) {δ : Type} (p : α → γ → δ) :
    (mapEach as fun a => f (g a) >>= fun b => pure (p a b)) =
      (mapEach (as.map g) f >>= fun bs => pure (as.zipWith p bs)) := by
  induction as with
  | nil => rfl
  | cons a as ih =>
      rw [mapEach_cons, List.map_cons, mapEach_cons, ih]
      simp only [bind_assoc]
      rfl

/-! ## Weakest preconditions -/

/-- From `s`, `x` meets no undefined behaviour, and ends in `post` when it
returns and in `exn` when it throws. -/
def wp (x : Act σ ε α) (post : α → σ → Prop) (exn : ε → σ → Prop)
    (s : σ) : Prop :=
  match x s with
  | (.returned a, s') => post a s'
  | (.threw e, s') => exn e s'
  | (.undefined, _) => False

section wp

variable {post post' : α → σ → Prop} {exn exn' : ε → σ → Prop}
  {last : β → σ → Prop} {s : σ}

theorem wp_of_apply {x : Act σ ε α} {a : α} {s' : σ}
    (h : x s = (.returned a, s')) (hpost : post a s') : wp x post exn s := by
  rw [wp, h]
  exact hpost

@[simp] theorem wp_pure (a : α) :
    wp (pure a : Act σ ε α) post exn = post a := rfl

@[simp] theorem wp_throw (e : ε) :
    wp (throw e : Act σ ε α) post exn = exn e := rfl

@[simp] theorem wp_throwIf {post : Unit → σ → Prop} (c : Prop)
    [Decidable c] (e : ε) :
    wp (throwIf c e : Act σ ε Unit) post exn =
      fun s => (c → exn e s) ∧ (¬c → post () s) := by
  funext s
  by_cases hc : c
  · simp [wp, throwIf, hc]
  · simp [wp, throwIf, hc]

@[simp] theorem wp_undefined :
    wp (undefined : Act σ ε α) post exn = fun _ => False := rfl

@[simp] theorem wp_get {post : σ → σ → Prop} :
    wp (get : Act σ ε σ) post exn = fun s => post s s := rfl

@[simp] theorem wp_modify {post : Unit → σ → Prop} (f : σ → σ) :
    wp (modify f : Act σ ε Unit) post exn = fun s => post () (f s) := rfl

@[simp] theorem wp_bind (x : Act σ ε α) (f : α → Act σ ε β) :
    wp (x >>= f) last exn = wp x (fun a => wp (f a) last exn) exn := by
  funext s
  simp only [wp, bind_apply]
  match x s with
  | (.returned _, _) => rfl
  | (.threw _, _) => rfl
  | (.undefined, _) => rfl

@[simp] theorem wp_tryCatch (x : Act σ ε α) (handler : ε → Act σ ε α) :
    wp (tryCatch x handler) post exn =
      wp x post (fun e => wp (handler e) post exn) := by
  funext s
  simp only [wp, tryCatch_apply]
  match x s with
  | (.returned _, _) => rfl
  | (.threw _, _) => rfl
  | (.undefined, _) => rfl

@[simp] theorem wp_ensuring (x : Act σ ε α) (f : σ → σ) :
    wp (ensuring x f) post exn =
      wp x (fun a s' => post a (f s')) (fun e s' => exn e (f s')) := by
  funext s
  simp only [wp, ensuring_apply]
  match x s with
  | (.returned _, _) => rfl
  | (.threw _, _) => rfl
  | (.undefined, _) => rfl

theorem wp.mono {x : Act σ ε α} (h : wp x post exn s)
    (hpost : ∀ a s', post a s' → post' a s')
    (hexn : ∀ e s', exn e s' → exn' e s') : wp x post' exn' s := by
  simp only [wp] at h ⊢
  match hx : x s with
  | (.returned a, s') => exact hpost a s' (by simpa [hx] using h)
  | (.threw e, s') => exact hexn e s' (by simpa [hx] using h)
  | (.undefined, _) => simp [hx] at h

/-- Two facts about one action. -/
theorem wp.and {x : Act σ ε α} (h : wp x post exn s)
    (h' : wp x post' exn' s) :
    wp x (fun a s' => post a s' ∧ post' a s')
      (fun e s' => exn e s' ∧ exn' e s') s := by
  simp only [wp] at h h' ⊢
  match hx : x s with
  | (.returned a, s') => simpa [hx] using And.intro h h'
  | (.threw e, s') => simpa [hx] using And.intro h h'
  | (.undefined, _) => simp [hx] at h

/-- The state `x` leaves satisfies what holds however `x` ends. -/
theorem wp.final {P : σ → Prop} {x : Act σ ε α}
    (h : wp x (fun _ => P) (fun _ => P) s) : P (x s).2 := by
  simp only [wp] at h
  match hx : x s with
  | (.returned a, s') => simpa [hx] using h
  | (.threw e, s') => simpa [hx] using h
  | (.undefined, _) => simp [hx] at h

/-- An action that meets no undefined behaviour returns or throws. -/
theorem wp.cases {x : Act σ ε α} (h : wp x post exn s) :
    (∃ a, (x s).1 = .returned a ∧ post a (x s).2) ∨
      ∃ e, (x s).1 = .threw e ∧ exn e (x s).2 := by
  simp only [wp] at h
  match hx : x s with
  | (.returned a, s') => exact Or.inl ⟨a, rfl, by simpa [hx] using h⟩
  | (.threw e, s') => exact Or.inr ⟨e, rfl, by simpa [hx] using h⟩
  | (.undefined, _) => simp [hx] at h

/-- An action that cannot throw returns. -/
theorem wp.returns {post : Unit → σ → Prop} {x : Act σ ε Unit}
    (h : wp x post (fun _ _ => False) s) :
    ∃ s', x s = (.returned (), s') := by
  simp only [wp] at h
  match hx : x s with
  | (.returned _, s') => exact ⟨s', rfl⟩
  | (.threw _, _) => simp [hx] at h
  | (.undefined, _) => simp [hx] at h

/-- Where an action that cannot throw returns. -/
theorem wp.ends {post : Unit → σ → Prop} {x : Act σ ε Unit}
    (h : wp x post (fun _ _ => False) s) :
    ∃ s', x s = (.returned (), s') ∧ post () s' := by
  obtain ⟨s', hx⟩ := h.returns
  rw [wp, hx] at h
  exact ⟨s', hx, h⟩

/-- The invariant rule of a loop over a list. -/
theorem wp_forEach {I : σ → Prop} {f : α → Act σ ε Unit} {as : List α}
    (hstep : ∀ a ∈ as, ∀ s, I s → wp (f a) (fun _ => I) exn s)
    (h : I s) : wp (forEach as f) (fun _ => I) exn s := by
  induction as generalizing s with
  | nil => exact h
  | cons a as ih =>
      rw [forEach_cons, wp_bind]
      refine (hstep a (by simp) s h).mono ?_ fun _ _ he => he
      intro _ s' hs'
      exact ih (fun b hb => hstep b (by simp [hb])) hs'

/-- The rule of a loop over a list whose elements each establish some goals
and keep all that hold. -/
theorem wp_forEach_covers {ι : Type} {I : σ → Prop} {G : ι → σ → Prop}
    {E : ι → α → Prop} {f : α → Act σ ε Unit} {as : List α}
    (hstep : ∀ a ∈ as, ∀ s, I s → wp (f a)
      (fun _ s' => I s' ∧ ∀ i, G i s ∨ E i a → G i s') exn s)
    (h : I s) :
    wp (forEach as f)
      (fun _ s' => I s' ∧ ∀ i, (G i s ∨ ∃ a ∈ as, E i a) → G i s') exn s := by
  induction as generalizing s with
  | nil =>
      refine ⟨h, fun i hi => ?_⟩
      rcases hi with hi | ⟨a, ha, -⟩
      · exact hi
      · cases ha
  | cons a as ih =>
      rw [forEach_cons, wp_bind]
      refine (hstep a (by simp) s h).mono ?_ fun _ _ he => he
      rintro _ s' ⟨hs', hgoal⟩
      refine (ih (fun b hb => hstep b (by simp [hb])) hs').mono ?_
        fun _ _ he => he
      rintro _ s'' ⟨hs'', hrest⟩
      refine ⟨hs'', fun i hi => hrest i ?_⟩
      rcases hi with hi | ⟨b, hb, hE⟩
      · exact Or.inl (hgoal i (Or.inl hi))
      · rcases List.mem_cons.mp hb with rfl | hb
        · exact Or.inl (hgoal i (Or.inr hE))
        · exact Or.inr ⟨b, hb, hE⟩

end wp

/-! ## What an action may change -/

/-- `x` meets no undefined behaviour, and relates the state before to the
state after by `R` whether it returns or throws. -/
def Moves (R : σ → σ → Prop) (x : Act σ ε α) : Prop :=
  ∀ s, wp x (fun _ => R s) (fun _ => R s) s

section Moves

variable {R : σ → σ → Prop}

theorem Moves.pure [Std.Refl R] (a : α) :
    Moves R (Pure.pure a : Act σ ε α) :=
  fun s => Std.Refl.refl s

theorem Moves.throw [Std.Refl R] (e : ε) :
    Moves R (Act.throw e : Act σ ε α) :=
  fun s => Std.Refl.refl s

theorem Moves.throwIf [Std.Refl R] (c : Prop) [Decidable c] (e : ε) :
    Moves R (Act.throwIf c e : Act σ ε Unit) :=
  fun s => by
    rw [wp_throwIf]
    exact ⟨fun _ => Std.Refl.refl s, fun _ => Std.Refl.refl s⟩

theorem Moves.get [Std.Refl R] : Moves R (Act.get : Act σ ε σ) :=
  fun s => Std.Refl.refl s

theorem Moves.modify {f : σ → σ} (h : ∀ s, R s (f s)) :
    Moves R (Act.modify f : Act σ ε Unit) :=
  h

/-- A moving action runs inside a proof about a larger one. -/
theorem Moves.wp_of [IsTrans σ R] {x : Act σ ε α} (hx : Moves R x)
    {s₀ s : σ} (h : R s₀ s) : wp x (fun _ => R s₀) (fun _ => R s₀) s :=
  (hx s).mono (fun _ _ hs => IsTrans.trans _ _ _ h hs)
    fun _ _ hs => IsTrans.trans _ _ _ h hs

theorem Moves.bind [IsTrans σ R] {x : Act σ ε α} {f : α → Act σ ε β}
    (hx : Moves R x) (hf : ∀ a, Moves R (f a)) : Moves R (x >>= f) := by
  intro s
  rw [wp_bind]
  exact (hx s).mono (fun a _ hs => (hf a).wp_of hs) fun _ _ hs => hs

theorem Moves.tryCatch [IsTrans σ R] {x : Act σ ε α}
    {handler : ε → Act σ ε α} (hx : Moves R x)
    (hh : ∀ e, Moves R (handler e)) : Moves R (Act.tryCatch x handler) := by
  intro s
  rw [wp_tryCatch]
  exact (hx s).mono (fun _ _ hs => hs) fun e _ hs => (hh e).wp_of hs

theorem Moves.ensuring [IsTrans σ R] {x : Act σ ε α} {f : σ → σ}
    (hx : Moves R x) (hf : ∀ s, R s (f s)) : Moves R (Act.ensuring x f) := by
  intro s
  rw [wp_ensuring]
  exact (hx s).mono (fun _ s' hs => IsTrans.trans _ _ _ hs (hf s'))
    fun _ s' hs => IsTrans.trans _ _ _ hs (hf s')

theorem Moves.ite {c : Prop} [Decidable c] {x y : Act σ ε α}
    (hx : Moves R x) (hy : Moves R y) : Moves R (if c then x else y) := by
  split
  · exact hx
  · exact hy

end Moves

/-! ## What an action leaves behind, whatever happens -/

/-- `x` relates the state before to the state after by `R`, even where it
meets undefined behaviour. -/
def Keeps (R : σ → σ → Prop) (x : Act σ ε α) : Prop :=
  ∀ s, R s (x s).2

section Keeps

variable {R : σ → σ → Prop}

theorem Moves.keeps {x : Act σ ε α} (h : Moves R x) : Keeps R x :=
  fun s => (h s).final

theorem Keeps.pure [Std.Refl R] (a : α) :
    Keeps R (Pure.pure a : Act σ ε α) :=
  fun s => Std.Refl.refl s

theorem Keeps.throw [Std.Refl R] (e : ε) :
    Keeps R (Act.throw e : Act σ ε α) :=
  fun s => Std.Refl.refl s

theorem Keeps.throwIf [Std.Refl R] (c : Prop) [Decidable c] (e : ε) :
    Keeps R (Act.throwIf c e : Act σ ε Unit) :=
  (Moves.throwIf c e).keeps

theorem Keeps.undefined [Std.Refl R] :
    Keeps R (Act.undefined : Act σ ε α) :=
  fun s => Std.Refl.refl s

theorem Keeps.get [Std.Refl R] : Keeps R (Act.get : Act σ ε σ) :=
  fun s => Std.Refl.refl s

theorem Keeps.modify {f : σ → σ} (h : ∀ s, R s (f s)) :
    Keeps R (Act.modify f : Act σ ε Unit) :=
  h

theorem Keeps.bind [IsTrans σ R] {x : Act σ ε α} {f : α → Act σ ε β}
    (hx : Keeps R x) (hf : ∀ a, Keeps R (f a)) : Keeps R (x >>= f) := by
  intro s
  have hfirst := hx s
  rw [bind_apply]
  match h : x s with
  | (.returned a, s') =>
      rw [h] at hfirst
      exact IsTrans.trans _ _ _ hfirst (hf a s')
  | (.threw e, s') =>
      rw [h] at hfirst
      exact hfirst
  | (.undefined, s') =>
      rw [h] at hfirst
      exact hfirst

theorem Keeps.tryCatch [IsTrans σ R] {x : Act σ ε α}
    {handler : ε → Act σ ε α} (hx : Keeps R x)
    (hh : ∀ e, Keeps R (handler e)) : Keeps R (Act.tryCatch x handler) := by
  intro s
  have hfirst := hx s
  rw [tryCatch_apply]
  match h : x s with
  | (.returned a, s') =>
      rw [h] at hfirst
      exact hfirst
  | (.threw e, s') =>
      rw [h] at hfirst
      exact IsTrans.trans _ _ _ hfirst (hh e s')
  | (.undefined, s') =>
      rw [h] at hfirst
      exact hfirst

theorem Keeps.ensuring [IsTrans σ R] {x : Act σ ε α} {f : σ → σ}
    (hx : Keeps R x) (hf : ∀ s, R s (f s)) : Keeps R (Act.ensuring x f) :=
  fun s => IsTrans.trans _ _ _ (hx s) (hf (x s).2)

theorem Keeps.ite {c : Prop} [Decidable c] {x y : Act σ ε α}
    (hx : Keeps R x) (hy : Keeps R y) : Keeps R (if c then x else y) := by
  split
  · exact hx
  · exact hy

theorem Keeps.forEach [Std.Refl R] [IsTrans σ R] {f : α → Act σ ε Unit}
    (as : List α) (hf : ∀ a, Keeps R (f a)) :
    Keeps R (Act.forEach as f) := by
  induction as with
  | nil => exact Keeps.pure ()
  | cons a as ih => exact (hf a).bind fun _ => ih

end Keeps

/-! ## Actions that never return -/

/-- `x` throws or runs into undefined behaviour, wherever it starts. -/
def Stops (x : Act σ ε α) : Prop :=
  ∀ s a, (x s).1 ≠ .returned a

theorem Stops.undefined : Stops (Act.undefined : Act σ ε α) := by
  rintro s a ⟨⟩

theorem Stops.bind {x : Act σ ε α} (hx : Stops x) (f : α → Act σ ε β) :
    Stops (x >>= f) := by
  intro s b
  rw [bind_apply]
  match h : x s with
  | (.returned a, _) => exact absurd (congrArg Prod.fst h) (hx s a)
  | (.threw _, _) => rintro ⟨⟩
  | (.undefined, _) => rintro ⟨⟩

theorem Stops.of_bind (x : Act σ ε α) {f : α → Act σ ε β}
    (hf : ∀ a, Stops (f a)) : Stops (x >>= f) := by
  intro s b
  rw [bind_apply]
  match x s with
  | (.returned a, s') => exact hf a s' b
  | (.threw _, _) => rintro ⟨⟩
  | (.undefined, _) => rintro ⟨⟩

theorem Stops.ensuring {x : Act σ ε α} (hx : Stops x) (f : σ → σ) :
    Stops (Act.ensuring x f) :=
  fun s a => hx s a

/-- Nothing runs behind an action that never returns. -/
theorem Keeps.bind_of_stops {R : σ → σ → Prop} {x : Act σ ε α}
    (hx : Keeps R x) (hstops : Stops x) (f : α → Act σ ε β) :
    Keeps R (x >>= f) := by
  intro s
  have hfirst := hx s
  rw [bind_apply]
  match h : x s with
  | (.returned a, _) => exact absurd (congrArg Prod.fst h) (hstops s a)
  | (.threw _, _) =>
      rw [h] at hfirst
      exact hfirst
  | (.undefined, _) =>
      rw [h] at hfirst
      exact hfirst

end Act

end Rc2Compute
