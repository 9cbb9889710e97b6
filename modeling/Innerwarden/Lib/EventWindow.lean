import Mathlib.Order.Lattice
import Innerwarden.Lib.StateMachine

/-!
# Events in a sliding window

For every instant there is a cutoff: an earlier instant is *recent* when it is after the cutoff.
A limiter that lets an event through only while fewer than `n` recent ones have happened gives a
`Spread` list of instants.

* `Spread.countP_le` bounds such a list over every window.
* `Remembers` is the invariant of a limiter that keeps the recent events.
* `recent_filter` and `dropWhile_eq_filter`: a limiter may forget what is not recent.
-/

namespace EventWindow

open List

variable {τ : Type*} [LinearOrder τ]

theorem dropWhile_eq_filter {α : Type*} {instant : α → τ} {l : List α}
    (hsorted : (l.map instant).Pairwise (· ≤ ·)) (cutoff : τ) :
    l.dropWhile (fun x => instant x < cutoff) = l.filter fun x => cutoff ≤ instant x := by
  induction l with
  | nil => rfl
  | cons x l ih =>
    obtain ⟨hle, hsorted⟩ := pairwise_cons.mp hsorted
    by_cases hx : instant x < cutoff
    · rw [dropWhile_cons_of_pos (by simpa using hx),
        filter_cons_of_neg (by simpa using hx), ih hsorted]
    · have hcutoff : cutoff ≤ instant x := not_lt.mp hx
      rw [dropWhile_cons_of_neg (by simpa using hx)]
      refine (filter_eq_self.mpr ?_).symm
      refine forall_mem_cons.mpr ⟨decide_eq_true hcutoff, fun y hy => decide_eq_true ?_⟩
      exact hcutoff.trans (hle (instant y) (mem_map_of_mem hy))

def recent (cutoff : τ) (ts : List τ) : Nat := ts.countP fun t => cutoff < t

theorem recent_append (cutoff : τ) (ts us : List τ) :
    recent cutoff (ts ++ us) = recent cutoff ts + recent cutoff us := countP_append

theorem recent_le_of_le {c c' : τ} (h : c ≤ c') (ts : List τ) : recent c' ts ≤ recent c ts :=
  countP_mono_left fun t _ ht => by
    simp only [decide_eq_true_eq] at ht ⊢
    exact h.trans_lt ht

theorem recent_filter {c c' : τ} (h : c ≤ c') (ts : List τ) :
    recent c' (ts.filter fun t => c < t) = recent c' ts := by
  rw [recent, countP_filter]
  refine countP_congr fun t _ => ?_
  simp only [Bool.and_eq_true, decide_eq_true_eq, and_iff_left_iff_imp]
  exact fun ht => h.trans_lt ht

/-- Every instant has fewer than `n` recent ones before it. -/
def Spread (cutoff : τ → τ) (n : Nat) (ts : List τ) : Prop :=
  ∀ pre t post, ts = pre ++ t :: post → recent (cutoff t) pre < n

variable {cutoff : τ → τ} {n : Nat} {ts : List τ}

theorem spread_nil : Spread cutoff n [] := by
  intro pre t post h
  simp at h

theorem Spread.concat {t : τ} (h : Spread cutoff n ts) (ht : recent (cutoff t) ts < n) :
    Spread cutoff n (ts ++ [t]) := by
  intro pre u post heq
  rcases StateMachine.concat_split heq with ⟨rfl, rfl⟩ | ⟨rest, hts, -⟩
  · exact ht
  · exact h pre u rest hts

theorem Spread.of_concat {t : τ} (h : Spread cutoff n (ts ++ [t])) :
    Spread cutoff n ts ∧ recent (cutoff t) ts < n := by
  refine ⟨fun pre u post heq => ?_, h ts t [] rfl⟩
  exact h pre u (post ++ [t]) (by rw [heq, append_assoc, cons_append])

/-- No window holds more than `n` of the events. -/
theorem Spread.countP_le (h : Spread cutoff n ts) (hsorted : ts.Pairwise (· ≤ ·)) {p : τ → Bool}
    (hp : ∀ s t, p s = true → p t = true → s ≤ t → cutoff t < s) : ts.countP p ≤ n := by
  induction ts using List.reverseRecOn with
  | nil => exact Nat.zero_le n
  | append_singleton ts t ih =>
    obtain ⟨hspread, hlast⟩ := h.of_concat
    obtain ⟨hsorted, -, hle⟩ := pairwise_append.mp hsorted
    rw [countP_append, countP_singleton]
    cases hpt : p t with
    | false => simpa using ih hspread hsorted
    | true =>
      -- Those of the window before the last one are recent for it.
      have hrecent : ts.countP p ≤ recent (cutoff t) ts := by
        refine countP_mono_left fun s hs hps => decide_eq_true ?_
        exact hp s t hps hpt (hle s hs t (mem_singleton_self t))
      simp only [if_true]
      omega

/-- A limiter with this memory has the recent ones of the events so far. -/
structure Remembers (cutoff : τ → τ) (n : Nat) (now : τ) (memory events : List τ) : Prop where
  past : ∀ t ∈ events, t ≤ now
  sorted : events.Pairwise (· ≤ ·)
  kept : ∀ c, cutoff now ≤ c → recent c memory = recent c events
  spread : Spread cutoff n events

theorem remembers_nil (now : τ) : Remembers cutoff n now [] [] :=
  ⟨nofun, .nil, fun _ _ => rfl, spread_nil⟩

section Remembers

variable {now now' : τ} {memory memory' events : List τ}
  (h : Remembers cutoff n now memory events) (hcutoff : Monotone cutoff) (hnow : now ≤ now')

include h hcutoff hnow

/-- Time passes, and the limiter forgets what is not recent. -/
theorem Remembers.later
    (hmemory : ∀ c, cutoff now' ≤ c → recent c memory' = recent c memory) :
    Remembers cutoff n now' memory' events where
  past t ht := (h.past t ht).trans hnow
  sorted := h.sorted
  kept c hc := (hmemory c hc).trans (h.kept c ((hcutoff hnow).trans hc))
  spread := h.spread

/-- The limiter lets an event through. -/
theorem Remembers.record (hroom : recent (cutoff now') memory < n)
    (hmemory : ∀ c, cutoff now' ≤ c → recent c memory' = recent c (memory ++ [now'])) :
    Remembers cutoff n now' memory' (events ++ [now']) where
  past := forall_mem_append.mpr ⟨fun t ht => (h.past t ht).trans hnow, by simp⟩
  sorted := by
    refine pairwise_append.mpr ⟨h.sorted, pairwise_singleton _ _, fun t ht u hu => ?_⟩
    rw [mem_singleton.mp hu]
    exact (h.past t ht).trans hnow
  kept c hc := by
    rw [hmemory c hc, recent_append, recent_append, h.kept c ((hcutoff hnow).trans hc)]
  spread := h.spread.concat (by rwa [← h.kept _ (hcutoff hnow)])

end Remembers

end EventWindow
