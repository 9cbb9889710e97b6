import Mathlib.Data.Set.Function
import Mathlib.Data.List.Basic

/-!
# Tables with a unique key

`upsert` is SQL's `INSERT … ON CONFLICT (key) DO UPDATE`.  `valueAt` is what a table holds, and
an upsert is a `Function.update` of it.  `putAll` makes a list of such writes; one that never
writes two values under one key can be made again, in part or in another order, to the same end.
`modify` changes the row under a key and `remove` deletes it.
-/

namespace KeyedTable

open List

variable {ρ κ ν : Type*} [DecidableEq κ]

/-! ## Rows -/

def valueAt (key : ρ → κ) (value : ρ → ν) (rows : List ρ) (k : κ) : Option ν :=
  (rows.find? fun r => key r = k).map value

/-- The row under the key changed, if there is one. -/
def modify (key : ρ → κ) (k : κ) (f : ρ → ρ) (rows : List ρ) : List ρ :=
  rows.map fun r => if key r = k then f r else r

/-- Insert `fresh`, or update the row that has its key. -/
def upsert (key : ρ → κ) (update : ρ → ρ) (fresh : ρ) (rows : List ρ) : List ρ :=
  if rows.any fun r => key r = key fresh then
    modify key (key fresh) update rows
  else
    rows ++ [fresh]

variable {key : ρ → κ} {value : ρ → ν} {update : ρ → ρ} {fresh : ρ}

theorem valueAt_modify {k : κ} {f : ρ → ρ} {g : ν → ν} (hkey : ∀ r, key r = k → key (f r) = k)
    (hvalue : ∀ r, key r = k → value (f r) = g (value r)) (rows : List ρ) :
    valueAt key value (modify key k f rows) =
      Function.update (valueAt key value rows) k ((valueAt key value rows k).map g) := by
  have keys : ∀ r, key (if key r = k then f r else r) = key r := by
    intro r
    split
    case isTrue hr => rw [hkey r hr, hr]
    case isFalse => rfl
  funext k'
  rw [valueAt, modify, find?_map]
  simp only [Function.comp_def, keys, Option.map_map]
  by_cases hk : k' = k
  · rw [hk, Function.update_self, valueAt, Option.map_map]
    cases hr : rows.find? fun r => key r = k with
    | none => rfl
    | some r =>
      have hkr : key r = k := by simpa using find?_some hr
      simp [hkr, hvalue r hkr]
  · rw [Function.update_of_ne hk, valueAt]
    cases hr : rows.find? fun r => key r = k' with
    | none => rfl
    | some r =>
      have hkr : key r = k' := by simpa using find?_some hr
      simp [hkr, hk]

theorem isSome_valueAt {rows : List ρ} {k : κ} :
    (valueAt key value rows k).isSome = rows.any fun r => key r = k := by
  rw [valueAt, Option.isSome_map, Bool.eq_iff_iff, find?_isSome, any_eq_true]

/-- An upsert writes one value. -/
theorem valueAt_upsert (hkey : ∀ r, key r = key fresh → key (update r) = key fresh)
    (hvalue : ∀ r, key r = key fresh → value (update r) = value fresh) (rows : List ρ) :
    valueAt key value (upsert key update fresh rows) =
      Function.update (valueAt key value rows) (key fresh) (some (value fresh)) := by
  by_cases present : rows.any fun r => key r = key fresh
  · obtain ⟨v, hv⟩ := Option.isSome_iff_exists.mp (isSome_valueAt.trans present)
    rw [upsert, if_pos present, valueAt_modify hkey (g := fun _ => value fresh) hvalue, hv]
    rfl
  · funext k
    rw [upsert, if_neg present, valueAt, find?_append]
    by_cases hk : k = key fresh
    · subst hk
      have absent : rows.find? (fun r => key r = key fresh) = none := by simpa using present
      simp [absent]
    · rw [Function.update_of_ne hk]
      simp [valueAt, Ne.symm hk]

theorem length_upsert (rows : List ρ) :
    (upsert key update fresh rows).length =
      if rows.any fun r => key r = key fresh then rows.length else rows.length + 1 := by
  unfold upsert
  split
  · exact length_map _
  · exact length_append

variable {rows : List ρ}

theorem upsert_of_notMem (h : key fresh ∉ rows.map key) :
    upsert key update fresh rows = rows ++ [fresh] := by
  have habsent : (rows.any fun r => key r = key fresh) = false := by
    simpa [any_eq_false] using h
  rw [upsert, habsent]
  rfl

theorem upsert_concat {r : ρ} (h : key fresh ∉ rows.map key) (hr : key r = key fresh) :
    upsert key update fresh (rows ++ [r]) = rows ++ [update r] := by
  have hrows : rows.map (fun r => if key r = key fresh then update r else r) = rows := by
    rw [map_congr_left (g := id), map_id]
    intro x hx
    have hne : key x ≠ key fresh := fun heq => h (heq ▸ mem_map_of_mem hx)
    exact if_neg hne
  simp [upsert, modify, hr, hrows]

theorem any_upsert (hkey : ∀ r, key r = key fresh → key (update r) = key fresh) (rows : List ρ) :
    ((upsert key update fresh rows).any fun r => key r = key fresh) = true := by
  rw [← @isSome_valueAt _ _ Unit _ key fun _ => (), valueAt_upsert hkey fun _ _ => rfl,
    Function.update_self, Option.isSome_some]

/-! ## Deletions -/

def remove (key : ρ → κ) (k : κ) (rows : List ρ) : List ρ := rows.filter fun r => key r ≠ k

theorem valueAt_remove (k : κ) (rows : List ρ) :
    valueAt key value (remove key k rows) = Function.update (valueAt key value rows) k none := by
  funext k'
  rw [valueAt, remove, find?_filter]
  simp only [decide_eq_true_eq]
  by_cases hk : k' = k
  · have habsent : rows.find? (fun r => decide (key r ≠ k ∧ key r = k')) = none := by
      rw [find?_eq_none]
      intro r _
      simp [hk]
    rw [habsent, hk, Function.update_self, Option.map_none]
  · rw [Function.update_of_ne hk, valueAt]
    congr 2
    funext r
    by_cases hr : key r = k'
    · simp [hr, hk]
    · simp [hr]

theorem length_remove_lt {k : κ} (h : rows.any fun r => key r = k) :
    (remove key k rows).length < rows.length := by
  obtain ⟨r, hr, hk⟩ := any_eq_true.mp h
  refine length_filter_lt_length_iff_exists.mpr ⟨r, hr, ?_⟩
  simpa using hk

/-! ## Lists of writes -/

def putAll (t : κ → Option ν) : List (κ × ν) → κ → Option ν
  | [] => t
  | w :: ws => putAll (Function.update t w.1 (some w.2)) ws

/-- The list never writes two values under one key. -/
def Consistent (ws : List (κ × ν)) : Prop := Set.InjOn Prod.fst {w | w ∈ ws}

variable {t : κ → Option ν} {ws vs : List (κ × ν)}

theorem putAll_of_notMem {k : κ} (hk : k ∉ ws.map Prod.fst) : putAll t ws k = t k := by
  induction ws generalizing t with
  | nil => rfl
  | cons w ws ih =>
    rw [map_cons, mem_cons, not_or] at hk
    exact (ih hk.2).trans (Function.update_of_ne hk.1 _ _)

theorem putAll_of_mem (consistent : Consistent ws) {w : κ × ν} (hw : w ∈ ws) :
    putAll t ws w.1 = some w.2 := by
  induction ws generalizing t with
  | nil => cases hw
  | cons v ws ih =>
    by_cases later : w.1 ∈ ws.map Prod.fst
    · -- A later write under the key is the same write.
      obtain ⟨u, hu, huw⟩ := mem_map.mp later
      have same : u = w := consistent (mem_cons_of_mem v hu) hw huw
      subst same
      exact ih (consistent.mono fun x hx => mem_cons_of_mem v hx) hu
    · have first : w = v := by
        rcases mem_cons.mp hw with rfl | hw
        · rfl
        · exact absurd (mem_map_of_mem hw) later
      subst first
      exact (putAll_of_notMem later).trans (Function.update_self ..)

/-- Some of the writes are as good as all of them exactly when the table held
already what the others write. -/
theorem putAll_eq_iff (consistent : Consistent vs) (hsub : ws ⊆ vs) :
    putAll t ws = putAll t vs ↔ ∀ w ∈ vs, w ∈ ws ∨ t w.1 = some w.2 := by
  constructor
  · intro heq w hw
    by_cases written : w.1 ∈ ws.map Prod.fst
    · obtain ⟨u, hu, huw⟩ := mem_map.mp written
      exact .inl (consistent (hsub hu) hw huw ▸ hu)
    · right
      calc t w.1 = putAll t ws w.1 := (putAll_of_notMem written).symm
        _ = putAll t vs w.1 := congrFun heq w.1
        _ = some w.2 := putAll_of_mem consistent hw
  · intro held
    have consistent' : Consistent ws := consistent.mono fun w hw => hsub hw
    funext k
    by_cases written : k ∈ vs.map Prod.fst
    · obtain ⟨w, hw, rfl⟩ := mem_map.mp written
      rw [putAll_of_mem consistent hw]
      by_cases made : w ∈ ws
      · exact putAll_of_mem consistent' made
      · have unwritten : w.1 ∉ ws.map Prod.fst := by
          intro other
          obtain ⟨u, hu, huw⟩ := mem_map.mp other
          exact made (consistent (hsub hu) hw huw ▸ hu)
        rw [putAll_of_notMem unwritten]
        exact (held w hw).resolve_left made
    · have unwritten : k ∉ ws.map Prod.fst := fun h =>
        written (map_subset Prod.fst hsub h)
      rw [putAll_of_notMem written, putAll_of_notMem unwritten]

end KeyedTable
