import Innerwarden.Lib.KeyedTable
import Innerwarden.Time

/-!
# The key-value table

`crates/store/src/kv.rs` over the table `kv_state`, whose primary key is a namespace and a key.
A read does not look at the expiry of a row: it counts until `kv_cleanup_expired` deletes it.
The texts of that column compare as their instants do, so it is modelled by the instant.
-/

namespace Innerwarden

open KeyedTable List Option

/-- A row of `kv_state`. -/
structure KvRow where
  ns : String
  key : String
  value : String
  expiresAt : Option DateTime

def KvRow.primaryKey (r : KvRow) : String × String := (r.ns, r.key)

def KvRow.content (r : KvRow) : String × Option DateTime := (r.value, r.expiresAt)

def kvEntry (rows : List KvRow) (k : String × String) : Option (String × Option DateTime) :=
  valueAt KvRow.primaryKey KvRow.content rows k

/-- `kv_get`, and `kv_get_str`. -/
def kvGet (rows : List KvRow) (ns key : String) : Option String :=
  (kvEntry rows (ns, key)).map Prod.fst

def kvSetWithExpiry (rows : List KvRow) (ns key value : String) (expiresAt : Option DateTime) :
    List KvRow :=
  upsert KvRow.primaryKey (fun r => { r with value, expiresAt }) ⟨ns, key, value, expiresAt⟩ rows

def kvSet (rows : List KvRow) (ns key value : String) : List KvRow :=
  kvSetWithExpiry rows ns key value none

def kvDelete (rows : List KvRow) (ns key : String) : List KvRow :=
  rows.filter fun r => r.primaryKey ≠ (ns, key)

def KvRow.expired (now : DateTime) (r : KvRow) : Bool := r.expiresAt.any fun e => e < now

/-- `kv_cleanup_expired` at the instant `now`. -/
def kvCleanupExpired (now : DateTime) (rows : List KvRow) : List KvRow :=
  rows.filter fun r => !r.expired now

theorem kvEntry_kvSetWithExpiry (rows : List KvRow) (ns key value : String)
    (expiresAt : Option DateTime) :
    kvEntry (kvSetWithExpiry rows ns key value expiresAt) =
      Function.update (kvEntry rows) (ns, key) (some (value, expiresAt)) := by
  refine valueAt_upsert ?_ ?_ rows
  · exact fun _ h => h
  · exact fun _ _ => rfl

theorem kvEntry_kvSetWithExpiry_of_ne {rows : List KvRow} {ns key value : String}
    {expiresAt : Option DateTime} {k : String × String} (h : k ≠ (ns, key)) :
    kvEntry (kvSetWithExpiry rows ns key value expiresAt) k = kvEntry rows k := by
  rw [kvEntry_kvSetWithExpiry, Function.update_of_ne h]

theorem kvEntry_kvSetWithExpiry_self {rows : List KvRow} {ns key value : String}
    {expiresAt : Option DateTime} :
    kvEntry (kvSetWithExpiry rows ns key value expiresAt) (ns, key) = some (value, expiresAt) := by
  rw [kvEntry_kvSetWithExpiry, Function.update_self]

theorem kvGet_kvDelete (rows : List KvRow) (ns key : String) :
    kvGet (kvDelete rows ns key) ns key = none := by
  rw [kvGet, kvEntry, valueAt, map_eq_none_iff, map_eq_none_iff, find?_eq_none]
  intro r hr
  simpa using (mem_filter.mp hr).2

/-- A sweep keeps the entries that are not expired. -/
theorem kvEntry_kvCleanupExpired {now : DateTime} {rows : List KvRow} {k : String × String}
    {content : String × Option DateTime} (h : kvEntry rows k = some content)
    (hlive : ∀ e, content.2 = some e → now ≤ e) :
    kvEntry (kvCleanupExpired now rows) k = some content := by
  obtain ⟨r, hr, rfl⟩ := map_eq_some_iff.mp h
  obtain ⟨hkey, front, back, rfl, hfront⟩ := find?_eq_some_iff_append.mp hr
  have hkept : r.expired now = false := by
    cases hexp : r.expiresAt with
    | none => simp [KvRow.expired, hexp]
    | some e => simpa [KvRow.expired, hexp] using hlive e hexp
  have hnone : (kvCleanupExpired now front).find? (fun r => r.primaryKey = k) = none := by
    refine find?_eq_none.mpr fun x hx => ?_
    have := hfront x (mem_of_mem_filter hx)
    simpa using this
  have hsplit : kvCleanupExpired now (front ++ r :: back) =
      kvCleanupExpired now front ++ r :: kvCleanupExpired now back := by
    rw [kvCleanupExpired, filter_append, filter_cons_of_pos (by simp [hkept])]
    rfl
  rw [kvEntry, valueAt, hsplit, find?_append, hnone, none_or,
    find?_cons_of_pos (by simpa using hkey)]
  rfl

end Innerwarden
