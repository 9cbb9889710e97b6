import Mathlib.Algebra.Ring.Nat
import Mathlib.Data.List.Basic
import Mathlib.Data.List.Induction

/-!
# Deterministic state machines with answers

A machine answers each operation with a next state and an output.  A *run* is a list of
operations.  `exec` is the state a run ends in and `trace` the outputs it gives, oldest first.
These rules carry the inductions over runs.

* `exec_invariant`, `exec_invariant_of_meets`: what every step keeps, or every step that meets a
  guard.
* `forall_exec_iff_meets`, `forall_prefix_iff_meets`, `exec_iff_meets`: the guard of an exact
  step rule decides whether a run keeps a property.
* `exec_trace_invariant`: an invariant of the state and the outputs given so far.
* `trace_cost_le`: each step pays for its output out of a potential of the state.

An endless run is a function that gives the operations, with `stateAt` and `outputAt`.
`Occurred`, `append_split` and `concat_split` are about the operations alone.
`exec_trace_filter` deletes operations an observer does not see.
-/

/-- A machine with states `σ`, operations `ι` and outputs `ω`. -/
structure StateMachine (σ ι ω : Type*) where
  /-- The state every run starts in. -/
  init : σ
  /-- The next state and the output of one operation. -/
  step : σ → ι → σ × ω

namespace StateMachine

open List

variable {σ ι ω : Type*} (M : StateMachine σ ι ω)

def exec : σ → List ι → σ
  | s, [] => s
  | s, op :: ops => exec (M.step s op).1 ops

/-- The outputs of a run, oldest first. -/
def trace : σ → List ι → List ω
  | _, [] => []
  | s, op :: ops => (M.step s op).2 :: trace (M.step s op).1 ops

/-- Every step of the run meets the guard, in the state it is taken in. -/
def Meets (G : σ → ι → Prop) : σ → List ι → Prop
  | _, [] => True
  | s, op :: ops => G s op ∧ Meets G (M.step s op).1 ops

/-- A guard that can be decided can be decided along a run. -/
instance decidableMeets (G : σ → ι → Prop) [∀ s op, Decidable (G s op)] :
    ∀ (s : σ) (ops : List ι), Decidable (M.Meets G s ops)
  | _, [] => inferInstanceAs (Decidable True)
  | s, op :: ops =>
    have := decidableMeets G (M.step s op).1 ops
    inferInstanceAs (Decidable (_ ∧ _))

variable {G : σ → ι → Prop} {P : σ → Prop} {W : List ι → ι → Prop} {R : σ → σ → Prop} (s : σ)
  (ops : List ι)

@[simp] theorem exec_nil : M.exec s [] = s := rfl

@[simp] theorem exec_cons (op : ι) (ops : List ι) :
    M.exec s (op :: ops) = M.exec (M.step s op).1 ops := rfl

@[simp] theorem trace_nil : M.trace s [] = [] := rfl

@[simp] theorem trace_cons (op : ι) (ops : List ι) :
    M.trace s (op :: ops) = (M.step s op).2 :: M.trace (M.step s op).1 ops := rfl

@[simp] theorem length_trace : (M.trace s ops).length = ops.length := by
  induction ops generalizing s with
  | nil => rfl
  | cons op ops ih => rw [trace_cons, length_cons, length_cons, ih]

theorem exec_append (ops' : List ι) : M.exec s (ops ++ ops') = M.exec (M.exec s ops) ops' := by
  induction ops generalizing s with
  | nil => rfl
  | cons op ops ih => exact ih (M.step s op).1

theorem trace_append (ops' : List ι) :
    M.trace s (ops ++ ops') = M.trace s ops ++ M.trace (M.exec s ops) ops' := by
  induction ops generalizing s with
  | nil => rfl
  | cons op ops ih => rw [cons_append, trace_cons, ih, trace_cons, exec_cons, cons_append]

theorem meets_append (ops' : List ι) :
    M.Meets G s (ops ++ ops') ↔ M.Meets G s ops ∧ M.Meets G (M.exec s ops) ops' := by
  induction ops generalizing s with
  | nil => exact ⟨fun h => ⟨trivial, h⟩, fun h => h.2⟩
  | cons op ops ih => exact (and_congr_right fun _ => ih (M.step s op).1).trans and_assoc.symm

theorem meets_of_forall {G : ι → Prop} {ops : List ι} (h : ∀ op ∈ ops, G op) (s : σ) :
    M.Meets (fun _ op => G op) s ops := by
  induction ops generalizing s with
  | nil => trivial
  | cons op ops ih =>
    obtain ⟨hop, hops⟩ := forall_mem_cons.mp h
    exact ⟨hop, ih hops (M.step s op).1⟩

theorem meets_congr {G' : σ → ι → Prop} (h : ∀ s op, G s op ↔ G' s op) (s : σ) (ops : List ι) :
    M.Meets G s ops ↔ M.Meets G' s ops := by
  induction ops generalizing s with
  | nil => exact Iff.rfl
  | cons op ops ih => exact and_congr (h s op) (ih (M.step s op).1)

variable {M}

theorem exists_of_mem_trace {out : ω} :
    ∀ {ops : List ι} {s : σ}, out ∈ M.trace s ops →
      ∃ pre op post, ops = pre ++ op :: post ∧ out = (M.step (M.exec s pre) op).2
  | [], _, h => nomatch h
  | op :: ops, s, h => by
    rcases mem_cons.mp h with rfl | h
    · exact ⟨[], op, ops, rfl, rfl⟩
    · obtain ⟨pre, op', post, rfl, hout⟩ := exists_of_mem_trace h
      exact ⟨op :: pre, op', post, rfl, hout⟩

/-- What every step keeps, every run keeps. -/
theorem exec_invariant (hstep : ∀ s op, P s → P (M.step s op).1) :
    ∀ (ops : List ι) {s : σ}, P s → P (M.exec s ops)
  | [], _, h => h
  | op :: ops, s, h => exec_invariant hstep ops (hstep s op h)

/-- What the guarded steps keep holds at the end of every run whose steps all meet the guard. -/
theorem exec_invariant_of_meets (hstep : ∀ s op, P s → G s op → P (M.step s op).1) :
    ∀ (ops : List ι) {s : σ}, P s → M.Meets G s ops → P (M.exec s ops)
  | [], _, h, _ => h
  | op :: ops, s, h, hm => exec_invariant_of_meets hstep ops (hstep s op h hm.1) hm.2

/-- When a step keeps a property exactly if it meets the guard, a run keeps it throughout
exactly if all its steps do.  The steps may have a guard `W` of their own, and there may be an
invariant that holds as long as the property does. -/
theorem forall_exec_iff_meets_of_meets {I : σ → Prop} {W : σ → ι → Prop}
    (hI : ∀ s op, I s → P s → W s op → I (M.step s op).1)
    (hstep : ∀ s op, I s → P s → W s op → (P (M.step s op).1 ↔ G s op)) :
    ∀ (ops : List ι) {s : σ}, I s → P s → M.Meets W s ops →
      ((∀ pre, pre <+: ops → P (M.exec s pre)) ↔ M.Meets G s ops)
  | [], s, _, h, _ => by
    refine ⟨fun _ => trivial, fun _ pre hpre => ?_⟩
    rw [prefix_nil.mp hpre]
    exact h
  | op :: ops, s, hs, h, hW => by
    have hnext := hI s op hs h hW.1
    constructor
    · intro hall
      have hop : P (M.step s op).1 := hall [op] (prefix_append [op] ops)
      refine ⟨(hstep s op hs h hW.1).mp hop,
        (forall_exec_iff_meets_of_meets hI hstep ops hnext hop hW.2).mp ?_⟩
      intro pre hpre
      exact hall (op :: pre) (cons_prefix_cons.mpr ⟨rfl, hpre⟩)
    · rintro ⟨hG, hm⟩ pre hpre
      cases pre with
      | nil => exact h
      | cons op' pre =>
        obtain ⟨rfl, htail⟩ := cons_prefix_cons.mp hpre
        have hop := (hstep s op' hs h hW.1).mpr hG
        exact (forall_exec_iff_meets_of_meets hI hstep ops hnext hop hW.2).mpr hm pre htail

theorem forall_exec_iff_meets {I : σ → Prop} (hI : ∀ s op, I s → I (M.step s op).1)
    (hstep : ∀ s op, I s → P s → (P (M.step s op).1 ↔ G s op)) (ops : List ι) {s : σ} (hs : I s)
    (h : P s) : (∀ pre, pre <+: ops → P (M.exec s pre)) ↔ M.Meets G s ops :=
  forall_exec_iff_meets_of_meets (W := fun _ _ => True) (fun s op hs _ _ => hI s op hs)
    (fun s op hs h _ => hstep s op hs h) ops hs h (M.meets_of_forall (fun _ _ => trivial) s)

/-- The rule for a property of the operations taken so far.  `N` is what is known of them. -/
theorem forall_prefix_iff_meets {T N : List ι → Prop} {s : σ} (hnil : T [])
    (hN : ∀ pre op, N (pre ++ [op]) → N pre)
    (hstep : ∀ pre op, T pre → N (pre ++ [op]) → (T (pre ++ [op]) ↔ G (M.exec s pre) op))
    (ops : List ι) (h : N ops) : (∀ pre, pre <+: ops → T pre) ↔ M.Meets G s ops := by
  induction ops using List.reverseRecOn with
  | nil => exact iff_of_true (fun pre hpre => prefix_nil.mp hpre ▸ hnil) trivial
  | append_singleton ops op ih =>
    have ih := ih (hN ops op h)
    have hlast : M.Meets G (M.exec s ops) [op] ↔ G (M.exec s ops) op := and_iff_left trivial
    rw [meets_append, hlast, ← ih]
    constructor
    · intro hall
      have hbefore : ∀ pre, pre <+: ops → T pre := fun pre hpre =>
        hall pre (hpre.trans (prefix_append ops [op]))
      exact ⟨hbefore, (hstep ops op (hbefore ops prefix_rfl) h).mp
        (hall (ops ++ [op]) prefix_rfl)⟩
    · rintro ⟨hbefore, hG⟩ pre hpre
      rcases prefix_concat_iff.mp hpre with rfl | hpre
      · exact (hstep ops op (hbefore ops prefix_rfl) h).mpr hG
      · exact hbefore pre hpre

/-- When a step gives a property exactly if it was there and the step meets the guard, a run does
so exactly if all its steps meet the guard. -/
theorem exec_iff_meets (hstep : ∀ s op, P (M.step s op).1 ↔ P s ∧ G s op) :
    ∀ (ops : List ι) (s : σ), P (M.exec s ops) ↔ P s ∧ M.Meets G s ops
  | [], _ => (and_iff_left trivial).symm
  | op :: ops, s => by
    rw [exec_cons, exec_iff_meets hstep ops, hstep, and_assoc]
    rfl

/-- A relation between the state and the outputs given so far, in the runs whose steps all meet
a guard. -/
theorem exec_trace_invariant_of_meets {P : σ → List ω → Prop}
    (hstep : ∀ s tr op, P s tr → G s op → P (M.step s op).1 (tr ++ [(M.step s op).2])) :
    ∀ (ops : List ι) {s : σ} {tr : List ω}, P s tr → M.Meets G s ops →
      P (M.exec s ops) (tr ++ M.trace s ops)
  | [], s, tr, h, _ => by simpa using h
  | op :: ops, s, tr, h, hm => by
    have ih := exec_trace_invariant_of_meets hstep ops (hstep s tr op h hm.1) hm.2
    rw [append_assoc, singleton_append] at ih
    exact ih

theorem exec_trace_invariant {P : σ → List ω → Prop}
    (hstep : ∀ s tr op, P s tr → P (M.step s op).1 (tr ++ [(M.step s op).2])) (ops : List ι)
    {s : σ} {tr : List ω} (h : P s tr) : P (M.exec s ops) (tr ++ M.trace s ops) :=
  exec_trace_invariant_of_meets (G := fun _ _ => True) (fun s tr op h _ => hstep s tr op h) ops h
    (M.meets_of_forall (fun _ _ => trivial) s)

theorem trace_map_eq {α : Type*} {f : ω → α} {g : ι → α} (hP : ∀ s op, P s → P (M.step s op).1)
    (hf : ∀ s op, P s → f (M.step s op).2 = g op) :
    ∀ (ops : List ι) {s : σ}, P s → (M.trace s ops).map f = ops.map g
  | [], _, _ => rfl
  | op :: ops, s, h => by
    rw [trace_cons, map_cons, map_cons, hf s op h,
      trace_map_eq hP hf ops (hP s op h)]

theorem trace_cost_le (cost : ω → Nat) (potential : σ → Nat)
    (hP : ∀ s op, P s → P (M.step s op).1)
    (hcost : ∀ s op, P s → cost (M.step s op).2 + potential (M.step s op).1 ≤ potential s) :
    ∀ (ops : List ι) {s : σ}, P s → ((M.trace s ops).map cost).sum ≤ potential s
  | [], _, _ => Nat.zero_le _
  | op :: ops, s, h => by
    have ih := trace_cost_le cost potential hP hcost ops (hP s op h)
    have := hcost s op h
    simp only [trace_cons, map_cons, sum_cons]
    omega

/-! ## Endless runs -/

/-- The state before the `n`-th operation of an endless run. -/
def stateAt (M : StateMachine σ ι ω) (ops : Nat → ι) : Nat → σ
  | 0 => M.init
  | n + 1 => (M.step (stateAt M ops n) (ops n)).1

/-- The output of the `n`-th operation of an endless run. -/
def outputAt (M : StateMachine σ ι ω) (ops : Nat → ι) (n : Nat) : ω :=
  (M.step (M.stateAt ops n) (ops n)).2

/-- What every operation of the run keeps holds all along. -/
theorem stateAt_invariant {ops : Nat → ι} (hinit : P M.init)
    (hstep : ∀ n s, P s → P (M.step s (ops n)).1) : ∀ n, P (M.stateAt ops n)
  | 0 => hinit
  | n + 1 => hstep n _ (stateAt_invariant hinit hstep n)

/-! ## First occurrences -/

theorem append_split {l l' pre post : List ι} {x : ι} (h : l ++ l' = pre ++ x :: post) :
    (∃ rest, l = pre ++ x :: rest ∧ post = rest ++ l') ∨
      ∃ grown, pre = l ++ grown ∧ l' = grown ++ x :: post := by
  rcases append_eq_append_iff.mp h with ⟨grown, hpre, hl'⟩ | ⟨rest, hl, hrest⟩
  · exact Or.inr ⟨grown, hpre, hl'⟩
  · cases rest with
    | nil => exact Or.inr ⟨[], by simpa using hl.symm, hrest.symm⟩
    | cons y rest =>
      cases hrest
      exact Or.inl ⟨rest, hl, rfl⟩

theorem concat_split {l pre post : List ι} {a x : ι} (h : l ++ [a] = pre ++ x :: post) :
    (pre = l ∧ x = a) ∨ ∃ rest, l = pre ++ x :: rest ∧ post = rest ++ [a] := by
  rcases append_split h with hrest | ⟨grown, hpre, ha⟩
  · exact Or.inr hrest
  · cases grown with
    | nil =>
      cases ha
      exact Or.inl ⟨by simpa using hpre, rfl⟩
    | cons y grown =>
      have hlength := congrArg List.length ha
      simp at hlength

/-- Some operation met the condition, given those before it. -/
def Occurred (W : List ι → ι → Prop) (ops : List ι) : Prop :=
  ∃ pre op post, ops = pre ++ op :: post ∧ W pre op

theorem not_occurred_nil : ¬ Occurred W [] := by
  rintro ⟨pre, op, post, h, -⟩
  simp at h

theorem Occurred.append {ops : List ι} (h : Occurred W ops) (ops' : List ι) :
    Occurred W (ops ++ ops') := by
  obtain ⟨pre, op, post, rfl, hW⟩ := h
  exact ⟨pre, op, post ++ ops', by rw [append_assoc, cons_append], hW⟩

theorem occurred_concat {ops : List ι} {op : ι} :
    Occurred W (ops ++ [op]) ↔ Occurred W ops ∨ W ops op := by
  constructor
  · rintro ⟨pre, op', post, h, hW⟩
    rcases concat_split h with ⟨rfl, rfl⟩ | ⟨rest, hops, -⟩
    · exact Or.inr hW
    · exact Or.inl ⟨pre, op', rest, hops, hW⟩
  · rintro (h | hW)
    · exact h.append [op]
    · exact ⟨ops, op, [], rfl, hW⟩

/-- A machine whose output counts one at the first occurrence and nothing elsewhere. -/
theorem sum_trace_first {count : ω → Nat} {s : σ}
    (hone : ∀ pre op, ¬ Occurred W pre → W pre op → count (M.step (M.exec s pre) op).2 = 1)
    (hzero : ∀ pre op, Occurred W pre ∨ ¬ W pre op → count (M.step (M.exec s pre) op).2 = 0)
    (ops : List ι) :
    (Occurred W ops → ((M.trace s ops).map count).sum = 1) ∧
      (¬ Occurred W ops → ((M.trace s ops).map count).sum = 0) := by
  induction ops using List.reverseRecOn with
  | nil => exact ⟨fun h => absurd h not_occurred_nil, fun _ => rfl⟩
  | append_singleton ops op ih =>
    rw [trace_append, map_append, sum_append, occurred_concat]
    simp only [trace_cons, trace_nil, map_cons, map_nil, sum_cons, sum_nil,
      Nat.add_zero]
    by_cases hocc : Occurred W ops
    · rw [ih.1 hocc, hzero ops op (Or.inl hocc)]
      exact ⟨fun _ => rfl, fun h => absurd (Or.inl hocc) h⟩
    · rw [ih.2 hocc]
      refine ⟨fun h => ?_, fun h => ?_⟩
      · rw [hone ops op hocc (h.resolve_left hocc)]
      · rw [hzero ops op (Or.inr fun hW => h (Or.inr hW))]

/-! ## Two runs -/

theorem exec_trace_lockstep {M' : StateMachine σ ι ω} {S : ι → ι → Prop}
    (hstep : ∀ s s' op op', R s s' → S op op' → G s op →
      R (M.step s op).1 (M'.step s' op').1 ∧ (M.step s op).2 = (M'.step s' op').2)
    {ops ops' : List ι} (hops : List.Forall₂ S ops ops') {s s' : σ} (h : R s s')
    (hm : M.Meets G s ops) :
    R (M.exec s ops) (M'.exec s' ops') ∧ M.trace s ops = M'.trace s' ops' := by
  induction hops generalizing s s' with
  | nil => exact ⟨h, rfl⟩
  | cons hop _ ih =>
    obtain ⟨hR, hout⟩ := hstep s s' _ _ h hop hm.1
    obtain ⟨hexec, htrace⟩ := ih hR hm.2
    refine ⟨hexec, ?_⟩
    rw [trace_cons, trace_cons, hout, htrace]

/-! ## What an observer sees -/

/-- Operations that change nothing an observer sees can be deleted from a run.  The
observer cannot tell related states apart. -/
theorem exec_trace_filter {α : Type*} {keep : ι → Bool} {seen : ω → List α}
    (hkeep : ∀ s s' op, R s s' → keep op = true →
      R (M.step s op).1 (M.step s' op).1 ∧ seen (M.step s op).2 = seen (M.step s' op).2)
    (hdrop : ∀ s s' op, R s s' → keep op = false →
      R (M.step s op).1 s' ∧ seen (M.step s op).2 = []) :
    ∀ (ops : List ι) {s s' : σ}, R s s' →
      R (M.exec s ops) (M.exec s' (ops.filter keep)) ∧
        (M.trace s ops).flatMap seen = (M.trace s' (ops.filter keep)).flatMap seen
  | [], _, _, h => ⟨h, rfl⟩
  | op :: ops, s, s', h => by
    rw [trace_cons, flatMap_cons]
    cases hop : keep op with
    | true =>
      obtain ⟨hR, hseen⟩ := hkeep s s' op h hop
      obtain ⟨hexec, htrace⟩ := exec_trace_filter hkeep hdrop ops hR
      rw [filter_cons_of_pos hop, trace_cons, flatMap_cons, hseen, htrace]
      exact ⟨hexec, rfl⟩
    | false =>
      obtain ⟨hR, hseen⟩ := hdrop s s' op h hop
      rw [filter_cons_of_neg (by simp [hop]), hseen]
      exact exec_trace_filter hkeep hdrop ops hR

end StateMachine
