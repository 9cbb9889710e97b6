import Mathlib.Algebra.GroupWithZero.Nat
import Mathlib.Data.List.Basic

/-!
# Loops that may return early

A `for` loop over a list whose body changes a state and may return.  `Turn` says that an
element gets its turn, and in which state.  What a loop does is said through its turns: what it
returns (`loop_eq_some_iff`), accumulates (`loop_accumulates`) or counts (`loop_count`), and when
two bodies make the same loop (`loop_congr`).
-/

namespace EarlyReturn

open List

variable {σ α β γ : Type*}

/-- The loop: the last state, and what was returned. -/
def loop (body : σ → α → σ × Option β) : List α → σ → σ × Option β
  | [], s => (s, none)
  | a :: as, s =>
    match body s a with
    | (t, some b) => (t, some b)
    | (t, none) => loop body as t

/-- An element gets its turn in a state. -/
inductive Turn (body : σ → α → σ × Option β) : List α → σ → α → σ → Prop
  | head {a : α} {as : List α} {s : σ} : Turn body (a :: as) s a s
  | tail {x a : α} {as : List α} {s s' t : σ} (hx : body s x = (s', none))
      (h : Turn body as s' a t) : Turn body (x :: as) s a t

variable {body body' : σ → α → σ × Option β} {as : List α} {a x : α} {s s' t t' : σ} {b : β}

@[simp] theorem loop_nil : loop body [] s = (s, none) := rfl

theorem loop_cons_of_none (hx : body s x = (s', none)) :
    loop body (x :: as) s = loop body as s' := by
  rw [loop, hx]

theorem loop_cons_of_some (hx : body s x = (s', some b)) :
    loop body (x :: as) s = (s', some b) := by
  rw [loop, hx]

theorem Turn.mem (h : Turn body as s a t) : a ∈ as := by
  induction h with
  | head => exact mem_cons_self
  | tail _ _ ih => exact mem_cons_of_mem _ ih

theorem not_turn_nil : ¬Turn body [] s a t := fun h => nomatch h

theorem turn_cons_iff_of_none (hx : body s x = (s', none)) :
    Turn body (x :: as) s a t ↔ (a = x ∧ t = s) ∨ Turn body as s' a t := by
  constructor
  · intro h
    cases h with
    | head => exact .inl ⟨rfl, rfl⟩
    | tail hx' h =>
      rw [hx] at hx'
      cases hx'
      exact .inr h
  · rintro (⟨rfl, rfl⟩ | h)
    · exact .head
    · exact .tail hx h

theorem turn_cons_iff_of_some (hx : body s x = (s', some b)) :
    Turn body (x :: as) s a t ↔ a = x ∧ t = s := by
  constructor
  · intro h
    cases h with
    | head => exact ⟨rfl, rfl⟩
    | tail hx' h => rw [hx] at hx'; nomatch hx'
  · rintro ⟨rfl, rfl⟩
    exact .head

theorem Turn.unique (hnodup : as.Nodup) (h : Turn body as s a t) (h' : Turn body as s a t') :
    t = t' := by
  induction h with
  | head =>
    cases h' with
    | head => rfl
    | tail _ h' => exact absurd h'.mem (nodup_cons.mp hnodup).1
  | tail hx h ih =>
    cases h' with
    | head => exact absurd h.mem (nodup_cons.mp hnodup).1
    | tail hx' h' =>
      rw [hx] at hx'
      cases hx'
      exact ih (nodup_cons.mp hnodup).2 h'

variable {P : σ → Prop}

theorem Turn.invariant (h : Turn body as s a t)
    (hstep : ∀ s x s', body s x = (s', none) → P s → P s') (hs : P s) : P t := by
  induction h with
  | head => exact hs
  | tail hx _ ih => exact ih (hstep _ _ _ hx hs)

/-- What the turns that are taken preserve holds in the end. -/
theorem loop_invariant_of_turns (hstep : ∀ a t, Turn body as s a t → P t → P (body t a).1)
    (hs : P s) : P (loop body as s).1 := by
  induction as, s using loop.induct body with
  | case1 s => exact hs
  | case2 x as s s' b heq =>
    have hx := hstep x s .head hs
    rw [heq] at hx
    rwa [loop_cons_of_some heq]
  | case3 x as s s' heq ih =>
    have hx := hstep x s .head hs
    rw [heq] at hx
    rw [loop_cons_of_none heq]
    exact ih (fun a t h => hstep a t (.tail heq h)) hx

/-- What every turn preserves holds in the end. -/
theorem loop_invariant (hstep : ∀ s, ∀ x ∈ as, P s → P (body s x).1) (hs : P s) :
    P (loop body as s).1 :=
  loop_invariant_of_turns (fun a t hturn => hstep t a hturn.mem) hs

theorem loop_eq_some_iff :
    (loop body as s).2 = some b ↔ ∃ a t, Turn body as s a t ∧ (body t a).2 = some b := by
  induction as, s using loop.induct body with
  | case1 s => simp [not_turn_nil]
  | case2 x as s s' c heq => simp [loop_cons_of_some heq, turn_cons_iff_of_some heq, heq]
  | case3 x as s s' heq ih =>
    simp only [loop_cons_of_none heq, ih, turn_cons_iff_of_none heq]
    constructor
    · rintro ⟨a, t, h, hb⟩
      exact ⟨a, t, .inr h, hb⟩
    · rintro ⟨a, t, ⟨rfl, rfl⟩ | h, hb⟩
      · rw [heq] at hb
        nomatch hb
      · exact ⟨a, t, h, hb⟩

/-- What a turn can only add to has been added by some turn. -/
theorem loop_accumulates {Q : σ → α → Prop} (hstep : ∀ s x, P (body s x).1 ↔ P s ∨ Q s x) :
    P (loop body as s).1 ↔ P s ∨ ∃ a t, Turn body as s a t ∧ Q t a := by
  induction as, s using loop.induct body with
  | case1 s => simp [not_turn_nil]
  | case2 x as s s' c heq =>
    have hx := hstep s x
    rw [heq] at hx
    simp [loop_cons_of_some heq, turn_cons_iff_of_some heq, hx]
  | case3 x as s s' heq ih =>
    have hx := hstep s x
    rw [heq] at hx
    simp only [loop_cons_of_none heq, ih, hx, turn_cons_iff_of_none heq, or_assoc]
    refine or_congr_right ?_
    constructor
    · rintro (h | ⟨a, t, h, hq⟩)
      · exact ⟨x, s, .inl ⟨rfl, rfl⟩, h⟩
      · exact ⟨a, t, .inr h, hq⟩
    · rintro ⟨a, t, ⟨rfl, rfl⟩ | h, hq⟩
      · exact .inl hq
      · exact .inr ⟨a, t, h, hq⟩

theorem Turn.of_agree (hagree : ∀ a t, Turn body as s a t → body t a = body' t a)
    (h : Turn body' as s a t) : Turn body as s a t := by
  induction h with
  | head => exact .head
  | tail hx _ ih =>
    have hx' := (hagree _ _ .head).trans hx
    exact .tail hx' (ih fun a t h => hagree a t (.tail hx' h))

theorem loop_congr (hagree : ∀ a t, Turn body as s a t → body t a = body' t a) :
    loop body as s = loop body' as s := by
  induction as, s using loop.induct body with
  | case1 s => rfl
  | case2 x as s s' c heq =>
    rw [loop_cons_of_some heq, loop_cons_of_some (hagree x s .head ▸ heq)]
  | case3 x as s s' heq ih =>
    rw [loop_cons_of_none heq, loop_cons_of_none (hagree x s .head ▸ heq)]
    exact ih fun a t h => hagree a t (.tail heq h)

/-- A reading of the state that only the turn of `a` changes is what that turn made of it. -/
theorem Turn.loop_eq {f : σ → γ} (h : Turn body as s a t) (hnodup : as.Nodup)
    (hother : ∀ s, ∀ x ∈ as, x ≠ a → f (body s x).1 = f s) :
    f t = f s ∧ f (loop body as s).1 = f (body t a).1 := by
  induction h with
  | @head a as s =>
    refine ⟨rfl, ?_⟩
    have hrest : ∀ s, f (loop body as s).1 = f s := fun s =>
      loop_invariant (P := fun u => f u = f s) (fun u x hx hu =>
        (hother u x (mem_cons_of_mem _ hx)
          (ne_of_mem_of_not_mem hx (nodup_cons.mp hnodup).1)).trans hu) rfl
    obtain ⟨s', _ | c, heq⟩ : ∃ s' r, body s a = (s', r) := ⟨_, _, rfl⟩
    · rw [loop_cons_of_none heq, heq, hrest]
    · rw [loop_cons_of_some heq, heq]
  | @tail x a as s s' t hx h ih =>
    obtain ⟨hfirst, hlast⟩ := ih (nodup_cons.mp hnodup).2 fun s y hy =>
      hother s y (mem_cons_of_mem _ hy)
    have hstep := hother s x mem_cons_self
      (ne_of_mem_of_not_mem h.mem (nodup_cons.mp hnodup).1).symm
    rw [hx] at hstep
    exact ⟨hfirst.trans hstep, loop_cons_of_none hx ▸ hlast⟩

/-- A reading of the state that only the turn of `a` changes stays as it is if there is no such
turn. -/
theorem loop_eq_of_not_turn {f : σ → γ} (h : ∀ t, ¬Turn body as s a t)
    (hother : ∀ s, ∀ x ∈ as, x ≠ a → f (body s x).1 = f s) : f (loop body as s).1 = f s := by
  have hne : ∀ {x as s}, (∀ t, ¬Turn body (x :: as) s a t) → x ≠ a := by
    rintro x as s h rfl
    exact h s .head
  induction as, s using loop.induct body with
  | case1 s => rfl
  | case2 x as s s' c heq =>
    rw [loop_cons_of_some heq, ← hother s x mem_cons_self (hne h), heq]
  | case3 x as s s' heq ih =>
    rw [loop_cons_of_none heq, ← hother s x mem_cons_self (hne h), heq]
    exact ih (fun t ht => h t (.tail heq ht)) fun s y hy => hother s y (mem_cons_of_mem _ hy)

theorem loop_filter {live : α → Bool} (hskip : ∀ s x, live x = false → body s x = (s, none)) :
    loop body (as.filter live) s = loop body as s := by
  induction as generalizing s with
  | nil => rfl
  | cons x as ih =>
    cases hx : live x with
    | false => rw [filter_cons_of_neg (by simp [hx]), ih, loop_cons_of_none (hskip s x hx)]
    | true =>
      rw [filter_cons_of_pos hx]
      obtain ⟨s', _ | c, heq⟩ : ∃ s' r, body s x = (s', r) := ⟨_, _, rfl⟩
      · rw [loop_cons_of_none heq, loop_cons_of_none heq, ih]
      · rw [loop_cons_of_some heq, loop_cons_of_some heq]

/-! ## The turns as a list -/

/-- The elements that get their turn, each with the state it finds. -/
def turns (body : σ → α → σ × Option β) : List α → σ → List (α × σ)
  | [], _ => []
  | a :: as, s =>
    (a, s) :: match body s a with
      | (_, some _) => []
      | (t, none) => turns body as t

theorem turns_cons_of_none (hx : body s x = (s', none)) :
    turns body (x :: as) s = (x, s) :: turns body as s' := by
  rw [turns, hx]

theorem turns_cons_of_some (hx : body s x = (s', some b)) :
    turns body (x :: as) s = [(x, s)] := by
  rw [turns, hx]

theorem mem_turns_iff : (a, t) ∈ turns body as s ↔ Turn body as s a t := by
  induction as, s using loop.induct body with
  | case1 s => exact iff_of_false not_mem_nil not_turn_nil
  | case2 x as s s' c heq =>
    rw [turns_cons_of_some heq, turn_cons_iff_of_some heq, mem_singleton, Prod.mk.injEq]
  | case3 x as s s' heq ih =>
    rw [turns_cons_of_none heq, turn_cons_iff_of_none heq, mem_cons, ih, Prod.mk.injEq]

theorem turns_isPrefix : (turns body as s).map Prod.fst <+: as := by
  induction as, s using loop.induct body with
  | case1 s => exact prefix_rfl
  | case2 x as s s' c heq =>
    rw [turns_cons_of_some heq]
    exact cons_prefix_cons.mpr ⟨rfl, nil_prefix⟩
  | case3 x as s s' heq ih =>
    rw [turns_cons_of_none heq, map_cons]
    exact cons_prefix_cons.mpr ⟨rfl, ih⟩

theorem Turn.loop_eq_of_some (h : Turn body as s a t) (hb : (body t a).2 = some b) :
    loop body as s = ((body t a).1, some b) := by
  induction h with
  | head => exact loop_cons_of_some (Prod.ext rfl hb)
  | tail hx _ ih => exact (loop_cons_of_none hx).trans (ih hb)

theorem loop_count {f : σ → Nat} {d : α × σ → Nat}
    (hstep : ∀ s, ∀ x ∈ as, f (body s x).1 = f s + d (x, s)) :
    f (loop body as s).1 = f s + ((turns body as s).map d).sum := by
  induction as, s using loop.induct body with
  | case1 s => rfl
  | case2 x as s s' b heq =>
    rw [loop_cons_of_some heq, turns_cons_of_some heq, map_singleton, sum_singleton,
      ← hstep s x mem_cons_self, heq]
  | case3 x as s s' heq ih =>
    rw [loop_cons_of_none heq, turns_cons_of_none heq, map_cons, sum_cons,
      ih fun s y hy => hstep s y (mem_cons_of_mem _ hy), ← Nat.add_assoc,
      ← hstep s x mem_cons_self, heq]

theorem countP_turns [DecidableEq β] (b : β) :
    (turns body as s).countP (fun t => decide ((body t.2 t.1).2 = some b)) =
      if (loop body as s).2 = some b then 1 else 0 := by
  induction as, s using loop.induct body with
  | case1 s => rfl
  | case2 x as s s' c heq =>
    rw [loop_cons_of_some heq, turns_cons_of_some heq, countP_singleton, heq]
    simp
  | case3 x as s s' heq ih =>
    rw [loop_cons_of_none heq, turns_cons_of_none heq, countP_cons, ih, heq]
    rfl

end EarlyReturn
