import Mathlib.Data.Fintype.Card
import Mathlib.Data.Set.Finite.Basic
import Mathlib.Logic.Relation

/-!
# Recursion over a graph

A recursive function calls itself, one after the other, for the callees of its
argument.  A call may end early: before it makes calls of its own, after it has
made them, or because one of them has not returned.

Such a function terminates exactly when no infinite chain of calls is entered,
and over finitely many arguments exactly when no argument is entered again
from itself.
-/

namespace Rc2Compute

/-- How a recursive function goes about a call. -/
structure Recursion (Call : Type) where
  /-- The call ends before it makes others. -/
  halts : Call → Bool
  /-- The calls it makes, in order. -/
  callees : Call → List Call
  /-- The call ends after those it has made, and does not return. -/
  fails : Call → Bool

/-- How a call ends. -/
inductive Ending where
  | returned
  | stopped
  | outOfFuel
deriving DecidableEq, Repr

namespace Recursion

variable {Call : Type}

/-- One call after the other until one does not return, and the calls that
have been completed. -/
def visitAll (f : Call → Ending × List Call) :
    List Call → Ending × List Call
  | [] => (.returned, [])
  | c :: cs =>
      match f c with
      | (.returned, log) => ((visitAll f cs).1, log ++ (visitAll f cs).2)
      | result => result

variable (r : Recursion Call)

/-- A call whose own calls go as `f` says. -/
def body (f : Call → Ending × List Call) (c : Call) : Ending × List Call :=
  if r.halts c then (.stopped, [])
  else match visitAll f (r.callees c) with
    | (.returned, log) =>
        (if r.fails c then .stopped else .returned, log ++ [c])
    | result => result

/-- A call with some fuel. -/
def visit : ℕ → Call → Ending × List Call
  | 0, _ => (.outOfFuel, [])
  | fuel + 1, c => r.body (visit fuel) c

/-! ## One call after the other -/

section VisitAll

variable {f g : Call → Ending × List Call} {c : Call} {cs : List Call}

theorem visitAll_cons_returned (h : (f c).1 = .returned) :
    visitAll f (c :: cs) =
      ((visitAll f cs).1, (f c).2 ++ (visitAll f cs).2) := by
  rw [visitAll]
  split
  next log heq => rw [heq]
  next hne => exact (hne (f c).2 (Prod.ext h rfl)).elim

theorem visitAll_cons_of_ne (h : (f c).1 ≠ .returned) :
    visitAll f (c :: cs) = f c := by
  rw [visitAll]
  split
  next log heq => exact absurd (by rw [heq]) h
  next => rfl

theorem visitAll_singleton (f : Call → Ending × List Call) (c : Call) :
    visitAll f [c] = f c := by
  by_cases h : (f c).1 = .returned
  · rw [visitAll_cons_returned h, visitAll, List.append_nil]
    exact Prod.ext h.symm rfl
  · exact visitAll_cons_of_ne h

theorem visitAll_returned_iff :
    (visitAll f cs).1 = .returned ↔ ∀ c ∈ cs, (f c).1 = .returned := by
  induction cs with
  | nil => exact iff_of_true rfl nofun
  | cons c cs ih =>
      rw [List.forall_mem_cons]
      by_cases hc : (f c).1 = .returned
      · rw [visitAll_cons_returned hc]
        exact ih.trans (and_iff_right hc).symm
      · rw [visitAll_cons_of_ne hc]
        exact iff_of_false hc fun h => hc h.1

/-- Where `f` has enough fuel, `g` may take its place. -/
theorem visitAll_congr (hfg : ∀ c, (f c).1 ≠ .outOfFuel → g c = f c)
    (h : (visitAll f cs).1 ≠ .outOfFuel) : visitAll g cs = visitAll f cs := by
  induction cs with
  | nil => rfl
  | cons c cs ih =>
      by_cases hc : (f c).1 = .returned
      · have hg : g c = f c := hfg c (by rw [hc]; decide)
        rw [visitAll_cons_returned hc] at h
        rw [visitAll_cons_returned (hg ▸ hc), visitAll_cons_returned hc,
          ih h, hg]
      · rw [visitAll_cons_of_ne hc] at h
        have hg : g c = f c := hfg c h
        rw [visitAll_cons_of_ne (hg ▸ hc), visitAll_cons_of_ne hc, hg]

end VisitAll

/-! ## Fuel -/

variable {r} {f : Call → Ending × List Call} {c : Call} {cs : List Call}
  {n m : ℕ}

theorem body_of_halts (h : r.halts c = true) : r.body f c = (.stopped, []) := by
  rw [body, if_pos h]

theorem body_of_returned (h : r.halts c = false)
    (hall : (visitAll f (r.callees c)).1 = .returned) :
    r.body f c = (if r.fails c then .stopped else .returned,
      (visitAll f (r.callees c)).2 ++ [c]) := by
  rw [body, if_neg (by rw [h]; decide)]
  split
  next log heq => rw [heq]
  next hne => exact (hne _ (Prod.ext hall rfl)).elim

theorem body_of_ne (h : r.halts c = false)
    (hall : (visitAll f (r.callees c)).1 ≠ .returned) :
    r.body f c = visitAll f (r.callees c) := by
  rw [body, if_neg (by rw [h]; decide)]
  split
  next log heq => exact absurd (by rw [heq]) hall
  next => rfl

/-- More fuel changes nothing for a call that had enough. -/
theorem visit_succ (h : (r.visit n c).1 ≠ .outOfFuel) :
    r.visit (n + 1) c = r.visit n c := by
  induction n generalizing c with
  | zero => exact absurd rfl h
  | succ n ih =>
      have hfg : ∀ c, (r.visit n c).1 ≠ .outOfFuel →
          r.visit (n + 1) c = r.visit n c := fun c hc => ih hc
      by_cases hhalts : r.halts c = true
      · rw [visit, visit, body_of_halts hhalts, body_of_halts hhalts]
      have hhalts : r.halts c = false := Bool.eq_false_of_not_eq_true hhalts
      by_cases hall : (visitAll (r.visit n) (r.callees c)).1 = .returned
      · have hne : (visitAll (r.visit n) (r.callees c)).1 ≠ .outOfFuel := by
          rw [hall]
          decide
        have hcongr := visitAll_congr hfg hne
        rw [visit, visit, body_of_returned hhalts (by rw [hcongr]; exact hall),
          body_of_returned hhalts hall, hcongr]
      · rw [visit, body_of_ne hhalts hall] at h
        have hcongr := visitAll_congr hfg h
        rw [visit, visit, body_of_ne hhalts (by rw [hcongr]; exact hall),
          body_of_ne hhalts hall, hcongr]

theorem visit_mono (hnm : n ≤ m) (h : (r.visit n c).1 ≠ .outOfFuel) :
    r.visit m c = r.visit n c := by
  induction m, hnm using Nat.le_induction with
  | base => rfl
  | succ m _ ih => rw [visit_succ (by rw [ih]; exact h), ih]

theorem visitAll_mono (hnm : n ≤ m)
    (h : (visitAll (r.visit n) cs).1 ≠ .outOfFuel) :
    visitAll (r.visit m) cs = visitAll (r.visit n) cs :=
  visitAll_congr (fun _ hc => visit_mono hnm hc) h

/-! ## Calls that return -/

/-- The call returns, and so do all calls it makes. -/
inductive Returns (r : Recursion Call) : Call → Prop
  | intro (c : Call) (halts : r.halts c = false)
      (callees : ∀ d ∈ r.callees c, Returns r d)
      (fails : r.fails c = false) : Returns r c

theorem returns_of_visit (h : (r.visit n c).1 = .returned) : r.Returns c := by
  induction n generalizing c with
  | zero => cases h
  | succ n ih =>
      by_cases hhalts : r.halts c = true
      · rw [visit, body_of_halts hhalts] at h
        cases h
      have hhalts : r.halts c = false := Bool.eq_false_of_not_eq_true hhalts
      by_cases hall : (visitAll (r.visit n) (r.callees c)).1 = .returned
      · rw [visit, body_of_returned hhalts hall] at h
        apply Returns.intro c hhalts
        · intro d hd
          exact ih (visitAll_returned_iff.mp hall d hd)
        · by_contra hfails
          rw [Bool.not_eq_false] at hfails
          rw [hfails] at h
          cases h
      · rw [visit, body_of_ne hhalts hall] at h
        exact absurd h hall

theorem Returns.exists_visit (h : r.Returns c) :
    ∃ n, (r.visit n c).1 = .returned := by
  induction h with
  | intro c hhalts _ hfails ih =>
      have hcallees : ∀ cs : List Call, (∀ d ∈ cs, ∃ n,
          (r.visit n d).1 = .returned) →
            ∃ n, (visitAll (r.visit n) cs).1 = .returned := by
        intro cs hcs
        induction cs with
        | nil => exact ⟨0, rfl⟩
        | cons d cs ihcs =>
            rw [List.forall_mem_cons] at hcs
            obtain ⟨⟨n, hn⟩, hrest⟩ := hcs
            obtain ⟨m, hm⟩ := ihcs hrest
            refine ⟨max n m, visitAll_returned_iff.mpr ?_⟩
            intro d' hd'
            obtain rfl | hd' := List.mem_cons.mp hd'
            · rw [visit_mono (le_max_left n m) (by rw [hn]; decide), hn]
            · have hd' := visitAll_returned_iff.mp hm d' hd'
              rw [visit_mono (le_max_right n m) (by rw [hd']; decide), hd']
      obtain ⟨n, hn⟩ := hcallees (r.callees c) ih
      refine ⟨n + 1, ?_⟩
      rw [visit, body_of_returned hhalts hn, hfails]
      rfl

/-- A call that returns never stops, whatever its fuel. -/
theorem Returns.visit_ne_stopped (h : r.Returns c) (n : ℕ) :
    (r.visit n c).1 ≠ .stopped := by
  intro hstopped
  obtain ⟨m, hm⟩ := h.exists_visit
  have hn := visit_mono (le_max_left n m) (by rw [hstopped]; decide)
  have hm' := visit_mono (le_max_right n m) (by rw [hm]; decide)
  rw [hn] at hm'
  rw [hm', hm] at hstopped
  cases hstopped

/-! ## Calls that are entered -/

/-- Of these calls, one after the other, `w` is entered: those before it
return. -/
def EnteredIn (r : Recursion Call) (cs : List Call) (w : Call) : Prop :=
  ∃ before after, cs = before ++ w :: after ∧ ∀ u ∈ before, r.Returns u

/-- `w` is entered from `v`. -/
def Entered (r : Recursion Call) (v w : Call) : Prop :=
  r.halts v = false ∧ r.EnteredIn (r.callees v) w

theorem EnteredIn.mem {w : Call} (h : r.EnteredIn cs w) : w ∈ cs := by
  obtain ⟨before, after, rfl, -⟩ := h
  exact List.mem_append_right before List.mem_cons_self

theorem Entered.mem_callees {v w : Call} (h : r.Entered v w) :
    w ∈ r.callees v :=
  h.2.mem

/-- Calls that are entered have enough fuel if all of them together do. -/
theorem visit_ne_of_visitAll {w : Call} (hentered : r.EnteredIn cs w)
    (h : (visitAll (r.visit n) cs).1 ≠ .outOfFuel) :
    (r.visit n w).1 ≠ .outOfFuel := by
  obtain ⟨before, after, rfl, hbefore⟩ := hentered
  induction before with
  | nil =>
      intro hw
      rw [List.nil_append, visitAll_cons_of_ne (by rw [hw]; decide)] at h
      exact h hw
  | cons u before ih =>
      rw [List.forall_mem_cons] at hbefore
      have hu : (r.visit n u).1 = .returned := by
        by_contra hne
        rw [List.cons_append, visitAll_cons_of_ne hne] at h
        have hstopped := hbefore.1.visit_ne_stopped n
        cases hending : (r.visit n u).1 with
        | returned => exact hne hending
        | stopped => exact hstopped hending
        | outOfFuel => exact h hending
      rw [List.cons_append, visitAll_cons_returned hu] at h
      exact ih hbefore.2 h

/-- Calls have enough fuel together if each of them that is entered has. -/
theorem exists_visitAll_ne
    (h : ∀ w, r.EnteredIn cs w → ∃ n, (r.visit n w).1 ≠ .outOfFuel) :
    ∃ n, (visitAll (r.visit n) cs).1 ≠ .outOfFuel := by
  -- what is left of the calls when those before have returned
  have hrest : ∀ rest before, cs = before ++ rest →
      (∀ u ∈ before, r.Returns u) →
        ∃ n, (visitAll (r.visit n) rest).1 ≠ .outOfFuel := by
    intro rest
    induction rest with
    | nil => exact fun _ _ _ => ⟨0, nofun⟩
    | cons w rest ih =>
        intro before hcs hbefore
        obtain ⟨n, hn⟩ := h w ⟨before, rest, hcs, hbefore⟩
        by_cases hw : (r.visit n w).1 = .returned
        · have hreturns : ∀ u ∈ before ++ [w], r.Returns u := by
            intro u hu
            obtain hu | hu := List.mem_append.mp hu
            · exact hbefore u hu
            · rw [List.mem_singleton.mp hu]
              exact returns_of_visit hw
          obtain ⟨m, hm⟩ := ih (before ++ [w]) (by rw [hcs]; simp) hreturns
          refine ⟨max n m, ?_⟩
          have hw' := visit_mono (le_max_left n m) hn
          rw [visitAll_cons_returned (by rw [hw', hw]),
            visitAll_mono (le_max_right n m) hm]
          exact hm
        · exact ⟨n, by rw [visitAll_cons_of_ne hw]; exact hn⟩
  exact hrest cs [] rfl nofun

/-! ## Termination -/

/-- A call terminates exactly when no infinite chain of calls is entered from
it. -/
theorem exists_visit_ne_iff :
    (∃ n, (r.visit n c).1 ≠ .outOfFuel) ↔ Acc (flip r.Entered) c := by
  constructor
  · rintro ⟨n, hn⟩
    induction n generalizing c with
    | zero => exact absurd rfl hn
    | succ n ih =>
        apply Acc.intro
        rintro w ⟨hhalts, hentered⟩
        apply ih
        apply visit_ne_of_visitAll hentered
        intro hall
        rw [visit, body_of_ne hhalts (by rw [hall]; decide)] at hn
        exact hn hall
  · intro hacc
    induction hacc with
    | intro v _ ih =>
        by_cases hhalts : r.halts v = true
        · refine ⟨1, ?_⟩
          rw [visit, body_of_halts hhalts]
          exact nofun
        have hhalts : r.halts v = false := Bool.eq_false_of_not_eq_true hhalts
        have hcallees : ∀ w, r.EnteredIn (r.callees v) w →
            ∃ n, (r.visit n w).1 ≠ .outOfFuel :=
          fun w hw => ih w ⟨hhalts, hw⟩
        obtain ⟨n, hn⟩ := exists_visitAll_ne hcallees
        refine ⟨n + 1, ?_⟩
        by_cases hall : (visitAll (r.visit n) (r.callees v)).1 = .returned
        · rw [visit, body_of_returned hhalts hall]
          dsimp only
          split
          · decide
          · decide
        · rw [visit, body_of_ne hhalts hall]
          exact hn

theorem exists_visitAll_ne_iff :
    (∃ n, (visitAll (r.visit n) cs).1 ≠ .outOfFuel) ↔
      ∀ w, r.EnteredIn cs w → Acc (flip r.Entered) w := by
  constructor
  · rintro ⟨n, hn⟩ w hw
    exact exists_visit_ne_iff.mp ⟨n, visit_ne_of_visitAll hw hn⟩
  · intro h
    exact exists_visitAll_ne fun w hw => exists_visit_ne_iff.mpr (h w hw)

/-! ## Finitely many calls -/

section Finite

variable {α : Type} {R : α → α → Prop}

theorem not_rel_of_acc {a : α} (h : Acc (flip R) a) : ¬R a a := by
  induction h with
  | intro b _ ih => exact fun hb => ih b hb hb

theorem not_transGen_of_acc {a : α} (h : Acc (flip R) a) :
    ¬Relation.TransGen R a a := by
  have hflip : Relation.TransGen (flip R) = flip (Relation.TransGen R) := by
    funext b c
    exact propext Relation.transGen_swap
  exact not_rel_of_acc (hflip ▸ h.transGen)

/-- Over a finite set that is closed under `R`, chains end exactly when there
is no cycle. -/
theorem acc_iff_of_finite {S : Set α} (hfinite : S.Finite)
    (hclosed : ∀ b ∈ S, ∀ c, R b c → c ∈ S) {a : α} (ha : a ∈ S) :
    Acc (flip R) a ↔
      ∀ b, Relation.ReflTransGen R a b → ¬Relation.TransGen R b b := by
  constructor
  · intro hacc b hb
    apply not_transGen_of_acc
    induction hb with
    | refl => exact hacc
    | tail _ hstep ih => exact ih.inv hstep
  · intro hacyclic
    let T := {b // b ∈ S ∧ Relation.ReflTransGen R a b}
    have : Finite T := (hfinite.subset fun b hb => hb.1).to_subtype
    let below : T → T → Prop := fun b c => Relation.TransGen R c.1 b.1
    have : IsTrans T below := ⟨fun _ _ _ hb hc => hc.trans hb⟩
    have : Std.Irrefl below := ⟨fun b => hacyclic b.1 b.2.2⟩
    have hwf : WellFounded below := Finite.wellFounded_of_trans_of_irrefl below
    have hacc : ∀ b : T, Acc (flip R) b.1 := by
      intro b
      induction b using hwf.induction with
      | h b ih =>
          apply Acc.intro
          intro c hc
          exact ih ⟨c, hclosed b.1 b.2.1 c hc, b.2.2.tail hc⟩
            (Relation.TransGen.single hc)
    exact hacc ⟨a, ha, Relation.ReflTransGen.refl⟩

end Finite

end Recursion

end Rc2Compute
