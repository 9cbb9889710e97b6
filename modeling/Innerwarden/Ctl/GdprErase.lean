import Mathlib.Data.List.Triplewise
import Innerwarden.Agent.Compliance

/-!
# Erasing a person from an audit file

`cmd_gdpr_erase` of `crates/ctl/src/commands/history.rs`, once it is confirmed, on the text of one
hash-chained file.  A file with no line that names the entity is left alone.  In another those
lines go, and so do blank lines, and `recompute_hash_chain` links the rest again.  The compliance
tab then reads the file with `verify_hash_chain`.

The verifier hashes a line that is not JSON, so the next line has to name that hash;
`recompute_hash_chain` passes over it.  It also writes `prev_hash` into whatever value it has
read, which panics unless that is an object or `null`.  `erasesCleanly_iff` says which files
come through.
-/

namespace Innerwarden.Gdpr

open Compliance Digest Text List Option

/-! ## The rewrite -/

/-- The fields `matches_entity` compares, beside the values of `entities`. -/
def entityFields : List String := ["target_ip", "target_user", "operator", "target"]

def matchesEntity (json : JsonCodec) (line entity : String) : Bool :=
  match json.value line with
  | none => false
  | some value =>
    (((value.get "entities").bind Json.asArray).getD []).any
        (fun e => (e.get "value").bind Json.asStr = some entity) ||
      entityFields.any fun field => (value.get field).bind Json.asStr = some entity

/-- `value["prev_hash"] = hash`: `null` turns into an object, and a value of any other
kind has no members, which is a panic. -/
def setPrevHash (hash : Option String) : Json → Option Json
  | .obj members => some (.obj (Json.insertMember "prev_hash" (.ofOption hash) members))
  | .null => some (.obj [("prev_hash", .ofOption hash)])
  | _ => none

variable (crates : LogCrates)

/-- `recompute_hash_chain` from the hash of the last JSON line on; `none` is a panic. -/
def recomputeHashChain : Option String → List String → Option (List String)
  | _, [] => some []
  | lastHash, line :: rest =>
    match crates.json.value line with
    | none => (recomputeHashChain lastHash rest).map (line :: ·)
    | some value =>
      (setPrevHash lastHash value).bind fun value =>
        let newLine := crates.json.toString value
        (recomputeHashChain (some (sha256Hex crates newLine)) rest).map (newLine :: ·)

/-- The lines `cmd_gdpr_erase` keeps. -/
def keptLines (content entity : String) : List String :=
  (lines content).filter fun l => trim l ≠ "" && !matchesEntity crates.json l entity

/-- The lines `cmd_gdpr_erase` counts before it touches a file. -/
def matchingLines (content entity : String) : List String :=
  (lines content).filter fun l => trim l ≠ "" && matchesEntity crates.json l entity

/-- What becomes of a file. -/
inductive Erasure
  | untouched
  | written (ls : List String)
  | panicked
  deriving DecidableEq

/-- `cmd_gdpr_erase` on a hash-chained file: only one with a matching line is rewritten. -/
def eraseLines (content entity : String) : Erasure :=
  if matchingLines crates content entity = [] then .untouched
  else
    match recomputeHashChain crates none (keptLines crates content entity) with
    | some ls => .written ls
    | none => .panicked

/-! ## What the rewrite should do -/

/-- The members of an object other than `prev_hash`. -/
def otherMembers (members : List (String × Json)) : List (String × Json) :=
  members.filter fun m => m.1 ≠ "prev_hash"

/-- The written line stands for the kept one: the text of the same value, but for the
`prev_hash` of an object, and the line itself when it is not JSON. -/
def SameRecord (line written : String) : Prop :=
  match crates.json.value line with
  | none => written = line
  | some (.obj members) =>
    ∃ members', written = crates.json.toString (.obj members') ∧
      otherMembers members' = otherMembers members
  | some value => written = crates.json.toString value

/-- The file is left alone, or its rewrite returns, keeps the records in order, and leaves a
file the verifier accepts. -/
def ErasesCleanly (content entity : String) : Prop :=
  eraseLines crates content entity = .untouched ∨
    ∃ written, eraseLines crates content entity = .written written ∧
      List.Forall₂ (SameRecord crates) (keptLines crates content entity) written ∧
      (Compliance.verifyHashChain crates (joinLines written)).1 = true

/-- The line is JSON. -/
def IsJson (line : String) : Prop := (crates.json.value line).isSome = true

/-- Every JSON line is an object. -/
def OnlyObjects (ls : List String) : Prop :=
  ∀ l ∈ ls, ∀ value, crates.json.value l = some value → ∃ members, value = .obj members

/-- No line that is not JSON stands between two that are. -/
def Unbroken (ls : List String) : Prop :=
  ls.Triplewise fun a b c => IsJson crates a → IsJson crates c → IsJson crates b

/-- What serde_json has to do with the kept lines: digits hold no line feed, the
`prev_hash` written into an object is read back from its text, and a carriage return
after a text that is not JSON does not matter. -/
structure ReadsErased (ls : List String) : Prop where
  digits : ∀ x, '\n' ∉ (crates.json.formatF64 x).toList
  prevHash : ∀ l ∈ ls, ∀ members, crates.json.value l = some (.obj members) →
    ∀ hash, hash = none ∨ (∃ text, hash = some (sha256Hex crates text)) →
      ∃ value, crates.json.value (crates.json.toString
          (.obj (Json.insertMember "prev_hash" (.ofOption hash) members))) = some value ∧
        (value.index "prev_hash").asStr = hash
  carriageReturn : ∀ l ∈ ls, crates.json.value l = none →
    crates.json.value (withoutCr l) = none

variable {crates}

/-! ## One line of the rewrite -/

/-- The text of an object with its new `prev_hash`. -/
def linked (crates : LogCrates) (hash : Option String) (members : List (String × Json)) : String :=
  crates.json.toString (.obj (Json.insertMember "prev_hash" (.ofOption hash) members))

/-- The rewrite of lines that are JSON only where they are objects. -/
inductive Rewrites (crates : LogCrates) : Option String → List String → List String → Prop
  | nil : Rewrites crates lastHash [] []
  | text (hline : crates.json.value line = none) (hout : Rewrites crates lastHash rest out) :
      Rewrites crates lastHash (line :: rest) (line :: out)
  | object (hline : crates.json.value line = some (.obj members))
      (hout : Rewrites crates (some (sha256Hex crates (linked crates lastHash members))) rest out) :
      Rewrites crates lastHash (line :: rest) (linked crates lastHash members :: out)

variable {line : String} {lastHash : Option String} {rest : List String}
  {members : List (String × Json)} {ls written : List String} {hash : Option String}

theorem recompute_cons_of_text (h : crates.json.value line = none) :
    recomputeHashChain crates lastHash (line :: rest) =
      (recomputeHashChain crates lastHash rest).map (line :: ·) := by
  rw [recomputeHashChain, h]

theorem recompute_cons_of_object (h : crates.json.value line = some (.obj members)) :
    recomputeHashChain crates lastHash (line :: rest) =
      (recomputeHashChain crates (some (sha256Hex crates (linked crates lastHash members)))
        rest).map (linked crates lastHash members :: ·) := by
  rw [recomputeHashChain, h]
  rfl

theorem ReadsErased.tail (h : ReadsErased crates (line :: rest)) : ReadsErased crates rest where
  digits := h.digits
  prevHash l hl := h.prevHash l (mem_cons_of_mem _ hl)
  carriageReturn l hl := h.carriageReturn l (mem_cons_of_mem _ hl)

theorem lf_not_mem_linked (h : ReadsErased crates ls) (hash : Option String)
    (members : List (String × Json)) : '\n' ∉ (linked crates hash members).toList :=
  Json.lf_not_mem_toText h.digits _

theorem withoutCr_linked (hash : Option String) (members : List (String × Json)) :
    withoutCr (linked crates hash members) = linked crates hash members := by
  apply withoutCr_eq_self
  rw [linked, JsonCodec.toString, Json.toText, Json.getLast?_objectText]
  decide

theorem linePrevHash_of_text (h : crates.json.value line = none) :
    linePrevHash crates.json line = none := by
  rw [linePrevHash, h]
  rfl

/-! ## The rewrite returns, and keeps the records -/

theorem otherMembers_insertMember (v : Json) (members : List (String × Json)) :
    otherMembers (Json.insertMember "prev_hash" v members) = otherMembers members := by
  induction members with
  | nil => simp [otherMembers, Json.insertMember]
  | cons m members ih =>
    obtain ⟨k, w⟩ := m
    rw [Json.insertMember]
    by_cases hbefore : "prev_hash" < k
    · simp [otherMembers, hbefore]
    rw [if_neg hbefore]
    by_cases hk : k = "prev_hash"
    · simp [otherMembers, hk]
    · rw [if_neg hk]
      rw [otherMembers] at ih
      simp only [otherMembers, filter_cons, ih]

theorem exists_rewrites (h : OnlyObjects crates ls) (lastHash : Option String) :
    ∃ written, Rewrites crates lastHash ls written := by
  induction ls generalizing lastHash with
  | nil => exact ⟨[], .nil⟩
  | cons line rest ih =>
    have htail : OnlyObjects crates rest := fun l hl => h l (mem_cons_of_mem _ hl)
    cases hline : crates.json.value line with
    | none =>
      obtain ⟨written, hwritten⟩ := ih htail lastHash
      exact ⟨_, .text hline hwritten⟩
    | some value =>
      obtain ⟨members, rfl⟩ := h line (mem_cons_self ..) value hline
      obtain ⟨written, hwritten⟩ := ih htail _
      exact ⟨_, .object hline hwritten⟩

theorem Rewrites.recompute_eq (h : Rewrites crates lastHash ls written) :
    recomputeHashChain crates lastHash ls = some written := by
  induction h with
  | nil => rfl
  | text hline _ ih => rw [recompute_cons_of_text hline, ih, map_some]
  | object hline _ ih => rw [recompute_cons_of_object hline, ih, map_some]

theorem rewrites_of_recompute (h : OnlyObjects crates ls)
    (hwritten : recomputeHashChain crates lastHash ls = some written) :
    Rewrites crates lastHash ls written := by
  obtain ⟨written', h⟩ := exists_rewrites h lastHash
  cases h.recompute_eq.symm.trans hwritten
  exact h

theorem Rewrites.sameRecord (h : Rewrites crates lastHash ls written) :
    List.Forall₂ (SameRecord crates) ls written := by
  induction h with
  | nil => exact .nil
  | text hline _ ih => exact .cons (by rw [SameRecord, hline]) ih
  | object hline _ ih =>
    refine .cons ?_ ih
    rw [SameRecord, hline]
    exact ⟨_, rfl, otherMembers_insertMember ..⟩

/-- A `null` that is written back is an object. -/
theorem linked_ne_null (hash : Option String) (members : List (String × Json)) :
    linked crates hash members ≠ crates.json.toString .null := by
  intro h
  have hbrace : '\x7b' ∈ (crates.json.toString .null).toList := by
    rw [← h, linked, JsonCodec.toString, Json.toText]
    exact Json.brace_mem_objectText _
  exact absurd hbrace (by rw [JsonCodec.toString, Json.toText]; decide)

/-- A rewrite that returns and keeps the records has read objects only. -/
theorem onlyObjects_of_sameRecord
    (hwritten : recomputeHashChain crates lastHash ls = some written)
    (hsame : List.Forall₂ (SameRecord crates) ls written) : OnlyObjects crates ls := by
  induction ls generalizing written lastHash with
  | nil => exact fun l hl => by cases hl
  | cons line rest ih =>
    cases hline : crates.json.value line with
    | none =>
      rw [recompute_cons_of_text hline] at hwritten
      obtain ⟨out, hout, rfl⟩ := map_eq_some_iff.mp hwritten
      refine forall_mem_cons.mpr ⟨fun value hvalue => ?_,
        ih hout (forall₂_cons.mp hsame).2⟩
      rw [hline] at hvalue
      cases hvalue
    | some value =>
      rw [recomputeHashChain, hline] at hwritten
      obtain ⟨value', hset, hrest⟩ := bind_eq_some_iff.mp hwritten
      obtain ⟨out, hout, rfl⟩ := map_eq_some_iff.mp hrest
      obtain ⟨hhead, htail⟩ := forall₂_cons.mp hsame
      refine forall_mem_cons.mpr ⟨fun w hw => ?_, ih hout htail⟩
      rw [hline] at hw
      obtain rfl := Option.some.inj hw
      -- only an object and `null` come past `setPrevHash`, and `null` is not kept as it was
      cases value with
      | obj members => exact ⟨members, rfl⟩
      | null =>
        rw [SameRecord, hline] at hhead
        obtain rfl := Option.some.inj hset
        exact absurd hhead (linked_ne_null lastHash [])
      | bool b | int n | float bits | str s | arr items => cases hset

/-! ## What the verifier makes of the written lines -/

theorem accepts_text (hreads : ReadsErased crates ls) (hmem : line ∈ ls)
    (htext : crates.json.value line = none) (before : String) :
    Accepts crates before (withoutCr line) := by
  intro expected hexpected
  rw [linePrevHash_of_text (hreads.carriageReturn line hmem htext)] at hexpected
  cases hexpected

theorem read_linked (hreads : ReadsErased crates ls) (hmem : line ∈ ls)
    (hobject : crates.json.value line = some (.obj members))
    (hhash : hash = none ∨ ∃ text, hash = some (sha256Hex crates text)) :
    linePrevHash crates.json (linked crates hash members) = hash ∧
      IsJson crates (linked crates hash members) := by
  obtain ⟨value, hvalue, hprev⟩ := hreads.prevHash line hmem members hobject hash hhash
  rw [linePrevHash, IsJson, linked, hvalue]
  exact ⟨hprev, rfl⟩

theorem isJson_of_object (h : crates.json.value line = some (.obj members)) :
    IsJson crates line := by
  rw [IsJson, h]
  rfl

theorem not_isJson_of_text (h : crates.json.value line = none) : ¬ IsJson crates line := by
  rw [IsJson, h]
  exact Bool.false_ne_true

theorem Rewrites.text_mem (h : Rewrites crates lastHash ls written) {n : String} (hn : n ∈ ls)
    (htext : crates.json.value n = none) : n ∈ written := by
  induction h with
  | nil => exact hn
  | text hline _ ih =>
    rcases mem_cons.mp hn with rfl | hn
    · exact mem_cons_self ..
    · exact mem_cons_of_mem _ (ih hn)
  | object hline _ ih =>
    rcases mem_cons.mp hn with rfl | hn
    · cases hline.symm.trans htext
    · exact mem_cons_of_mem _ (ih hn)

/-- Lines with one hash are one line. -/
def Apart (crates : LogCrates) (ls : List String) : Prop :=
  ∀ a ∈ ls, ∀ b ∈ ls, sha256Hex crates a = sha256Hex crates b → a = b

theorem apart_of_collisionFree (h : CollisionFree crates.sha256 (ls.map String.toByteArray)) :
    Apart crates ls := by
  intro a ha b hb hhash
  exact String.toByteArray_inj.mp (h (mem_map_of_mem ha) (mem_map_of_mem hb)
    (lowerHex_injective hhash))

theorem Apart.tail {l : String} (h : Apart crates (l :: ls)) : Apart crates ls :=
  fun a ha b hb => h a (mem_cons_of_mem _ ha) b (mem_cons_of_mem _ hb)

/-- Once a line that is not JSON has come after a JSON line, the hash the next JSON line
names is not that of the line before it. -/
theorem isChain_after_gap {before text : String} (hreads : ReadsErased crates ls)
    (hwritten : Rewrites crates (some (sha256Hex crates text)) ls written)
    (hbefore : sha256Hex crates text ≠ sha256Hex crates before)
    (hgap : ∀ n ∈ ls, crates.json.value n = none →
      sha256Hex crates text ≠ sha256Hex crates (withoutCr n)) :
    (before :: written.map withoutCr).IsChain (Accepts crates) ↔ ∀ l ∈ ls, ¬ IsJson crates l := by
  induction ls generalizing written before with
  | nil =>
    cases hwritten
    simp
  | cons line rest ih =>
    cases hwritten with
    | text hline hout =>
      have hrest := ih hreads.tail hout (hgap line (mem_cons_self ..) hline)
        fun n hn => hgap n (mem_cons_of_mem _ hn)
      rw [map_cons, isChain_cons_cons, hrest, forall_mem_cons]
      exact and_congr (iff_of_true (accepts_text hreads (mem_cons_self ..) hline before)
        (not_isJson_of_text hline)) Iff.rfl
    | object hline hout =>
      rw [map_cons, withoutCr_linked, isChain_cons_cons, forall_mem_cons]
      refine iff_of_false (fun h => hbefore ?_) fun h => h.1 (isJson_of_object hline)
      exact h.1 _ (read_linked hreads (mem_cons_self ..) hline (.inr ⟨text, rfl⟩)).1

/-- After a JSON line the chain holds until a line that is not JSON comes. -/
theorem isChain_after_json {before : String} (hreads : ReadsErased crates ls)
    (hbefore : IsJson crates before)
    (hwritten : Rewrites crates (some (sha256Hex crates before)) ls written)
    (hapart : Apart crates (before :: written.map withoutCr)) :
    (before :: written.map withoutCr).IsChain (Accepts crates) ↔
      ls.Pairwise fun b c => IsJson crates c → IsJson crates b := by
  induction ls generalizing written before with
  | nil =>
    cases hwritten
    simp
  | cons line rest ih =>
    have hhead : line ∈ line :: rest := mem_cons_self ..
    -- the JSON line and the others cannot share a hash, since one of them is JSON
    have hgap : ∀ n ∈ line :: rest, crates.json.value n = none →
        sha256Hex crates before ≠ sha256Hex crates (withoutCr n) := by
      intro n hn htext hhash
      have hmem := mem_map_of_mem (f := withoutCr) (hwritten.text_mem hn htext)
      have heq := hapart _ (mem_cons_self ..) _ (mem_cons_of_mem _ hmem) hhash
      exact not_isJson_of_text (hreads.carriageReturn n hn htext) (heq ▸ hbefore)
    cases hwritten with
    | text hline hout =>
      rw [map_cons, isChain_cons_cons,
        isChain_after_gap hreads.tail hout (hgap line hhead hline)
          fun n hn => hgap n (mem_cons_of_mem _ hn),
        pairwise_cons]
      constructor
      · rintro ⟨-, hnone⟩
        exact ⟨fun c hc hjson => absurd hjson (hnone c hc),
          pairwise_of_forall_mem_list fun b hb c hc hjson => absurd hjson (hnone c hc)⟩
      · rintro ⟨hnone, -⟩
        exact ⟨accepts_text hreads hhead hline before,
          fun c hc hjson => not_isJson_of_text hline (hnone c hc hjson)⟩
    | @object _ members _ _ _ hline hout =>
      have hread := read_linked hreads hhead hline (.inr ⟨before, rfl⟩)
      rw [map_cons, withoutCr_linked] at hapart ⊢
      have haccepts : Accepts crates before
          (linked crates (some (sha256Hex crates before)) members) := by
        intro expected hexpected
        rw [hread.1] at hexpected
        exact (Option.some.inj hexpected).symm
      rw [isChain_cons_cons, ih hreads.tail hread.2 hout hapart.tail, pairwise_cons]
      exact and_congr (iff_of_true haccepts fun _ _ _ => isJson_of_object hline) Iff.rfl

/-- Before the first JSON line, which names no hash, nothing can fail. -/
theorem accepts_head (hreads : ReadsErased crates ls) (hwritten : Rewrites crates none ls written)
    (before : String) : ∀ l ∈ (written.map withoutCr).head?, Accepts crates before l := by
  intro l hl
  cases hwritten with
  | nil => cases hl
  | text hline hout =>
    cases hl
    exact accepts_text hreads (mem_cons_self ..) hline before
  | object hline hout =>
    rw [map_cons, withoutCr_linked] at hl
    cases hl
    intro expected hexpected
    rw [(read_linked hreads (mem_cons_self ..) hline (.inl rfl)).1] at hexpected
    cases hexpected

theorem unbroken_of_pairwise (h : ls.Pairwise fun b c => IsJson crates c → IsJson crates b) :
    Unbroken crates ls := by
  induction h with
  | nil => exact .nil
  | cons _ hrest ih => exact .cons (hrest.imp fun h _ => h) ih

/-- The written lines chain exactly when the JSON lines stand together. -/
theorem isChain_recompute (hreads : ReadsErased crates ls)
    (hwritten : Rewrites crates none ls written) (hapart : Apart crates (written.map withoutCr)) :
    (written.map withoutCr).IsChain (Accepts crates) ↔ Unbroken crates ls := by
  induction ls generalizing written with
  | nil =>
    cases hwritten
    exact iff_of_true .nil .nil
  | cons line rest ih =>
    have hhead : line ∈ line :: rest := mem_cons_self ..
    rw [Unbroken, triplewise_cons]
    cases hwritten with
    | text hline hout =>
      rw [map_cons, isChain_cons, ih hreads.tail hout hapart.tail]
      refine and_congr (iff_of_true (accepts_head hreads.tail hout _) ?_) Iff.rfl
      exact pairwise_of_forall fun _ _ hjson => absurd hjson (not_isJson_of_text hline)
    | object hline hout =>
      rw [map_cons, withoutCr_linked] at hapart ⊢
      rw [isChain_after_json hreads.tail (read_linked hreads hhead hline (.inl rfl)).2 hout hapart]
      constructor
      · intro hpair
        exact ⟨hpair.imp fun h _ => h, unbroken_of_pairwise hpair⟩
      · rintro ⟨hpair, -⟩
        exact hpair.imp fun h => h (isJson_of_object hline)

/-- A written line is a line that was kept, or an object with its new `prev_hash`. -/
theorem Rewrites.kept_or_linked (h : Rewrites crates lastHash ls written) {w : String}
    (hw : w ∈ written) : w ∈ ls ∨ ∃ hash members, w = linked crates hash members := by
  induction h with
  | nil => exact .inl hw
  | text hline _ ih =>
    rcases mem_cons.mp hw with rfl | hw
    · exact .inl (mem_cons_self ..)
    · exact (ih hw).imp_left (mem_cons_of_mem _)
  | object hline _ ih =>
    rcases mem_cons.mp hw with rfl | hw
    · exact .inr ⟨_, _, rfl⟩
    · exact (ih hw).imp_left (mem_cons_of_mem _)

/-- The verifier looks at every written line, without a carriage return at its end. -/
theorem chainLines_written {content entity : String}
    (hreads : ReadsErased crates (keptLines crates content entity))
    (hwritten : Rewrites crates none (keptLines crates content entity) written) :
    chainLines (joinLines written) = written.map withoutCr := by
  have hlines : ∀ w ∈ written, '\n' ∉ w.toList ∧ withoutCr w ≠ "" := by
    intro w hw
    rcases hwritten.kept_or_linked hw with hkept | ⟨hash, members, rfl⟩
    · obtain ⟨hmem, hblank⟩ := mem_filter.mp hkept
      refine ⟨lf_not_mem_of_mem_lines hmem, withoutCr_ne_empty ?_⟩
      exact of_decide_eq_true (Bool.and_eq_true_iff.mp hblank).1
    · refine ⟨lf_not_mem_linked hreads hash members, fun hempty => ?_⟩
      have hbrace : '\x7b' ∈ (linked crates hash members).toList := by
        rw [linked, JsonCodec.toString, Json.toText]
        exact Json.brace_mem_objectText _
      rw [withoutCr_linked] at hempty
      rw [hempty] at hbrace
      cases hbrace
  rw [chainLines, lines_joinLines_eq_map fun w hw => (hlines w hw).1]
  refine filter_eq_self.mpr fun l hl => decide_eq_true ?_
  obtain ⟨w, hw, rfl⟩ := mem_map.mp hl
  exact (hlines w hw).2

theorem eraseLines_eq_untouched_iff {content entity : String} :
    eraseLines crates content entity = .untouched ↔ matchingLines crates content entity = [] := by
  rw [eraseLines]
  split_ifs with hnone
  · exact iff_of_true rfl hnone
  · refine iff_of_false ?_ hnone
    cases recomputeHashChain crates none (keptLines crates content entity) <;> nofun

theorem eraseLines_eq_written_iff {content entity : String}
    (hmatch : matchingLines crates content entity ≠ []) :
    eraseLines crates content entity = .written written ↔
      recomputeHashChain crates none (keptLines crates content entity) = some written := by
  rw [eraseLines, if_neg hmatch]
  cases recomputeHashChain crates none (keptLines crates content entity) with
  | none => simp
  | some ls => simp

/-- A file comes through exactly when no line names the entity, or each JSON line that is
kept is an object and no other line stands between two of them. -/
theorem erasesCleanly_iff (crates : LogCrates) (content entity : String)
    (hreads : ReadsErased crates (keptLines crates content entity))
    (hcollision : ∀ written, eraseLines crates content entity = .written written →
      CollisionFree crates.sha256 ((chainLines (joinLines written)).map String.toByteArray)) :
    ErasesCleanly crates content entity ↔
      matchingLines crates content entity = [] ∨
        OnlyObjects crates (keptLines crates content entity) ∧
          Unbroken crates (keptLines crates content entity) := by
  rw [ErasesCleanly, eraseLines_eq_untouched_iff]
  refine or_congr_right' fun hmatch => ?_
  have hverify : OnlyObjects crates (keptLines crates content entity) → ∀ written,
      eraseLines crates content entity = .written written →
      ((Compliance.verifyHashChain crates (joinLines written)).1 = true ↔
        Unbroken crates (keptLines crates content entity)) := by
    intro hobjects written hwritten
    have hrewrites := rewrites_of_recompute hobjects
      ((eraseLines_eq_written_iff hmatch).mp hwritten)
    have hlines := chainLines_written hreads hrewrites
    have hapart := apart_of_collisionFree (hcollision written hwritten)
    rw [hlines] at hapart
    rw [Compliance.verifyHashChain_intact_iff, hlines]
    exact isChain_recompute hreads hrewrites hapart
  constructor
  · rintro ⟨written, hwritten, hsame, hintact⟩
    have hobjects :=
      onlyObjects_of_sameRecord ((eraseLines_eq_written_iff hmatch).mp hwritten) hsame
    exact ⟨hobjects, (hverify hobjects written hwritten).mp hintact⟩
  · rintro ⟨hobjects, hunbroken⟩
    obtain ⟨written, h⟩ := exists_rewrites hobjects none
    have hwritten := (eraseLines_eq_written_iff hmatch).mpr h.recompute_eq
    exact ⟨written, hwritten, h.sameRecord, (hverify hobjects written hwritten).mpr hunbroken⟩

/-! ## Files with a record of the entity -/

/-- A line that names the entity. -/
def recordLine : String := "\x7b\"target\":\"203.0.113.7\"\x7d"

/-- A digest for the text of `\x7b"prev_hash":null\x7d`, and one for all others. -/
def sampleDigest (bytes : ByteArray) : Digest := .ofNat (if bytes.size = 18 then 1 else 0)

theorem sampleDigest_mem (bytes : ByteArray) :
    sampleDigest bytes = .ofNat 1 ∨ sampleDigest bytes = .ofNat 0 := by
  by_cases h : bytes.size = 18 <;> simp [sampleDigest, h]

/-- The hashes that are written. -/
def bareHashes : List (Option String) :=
  [none, some (lowerHex (.ofNat 1)), some (lowerHex (.ofNat 0))]

/-- The text of an object with no member but its `prev_hash`. -/
def bareText (hash : Option String) : String :=
  "\x7b\"prev_hash\":" ++ hash.elim "null" (fun h => "\"" ++ h ++ "\"") ++ "\x7d"

/-- The crates on these lines. -/
def bareCrates : LogCrates where
  sha256 := sampleDigest
  json :=
    { formatF64 := fun _ => ""
      formatF32 := fun _ => ""
      fromStr := fun s =>
        if s = recordLine then some (.obj [("target", .str "203.0.113.7")])
        else if s = "\x7b\x7d" then some (.obj [])
        else if s = "5" then some (.int 5)
        else bareHashes.findSome? fun hash =>
          if s = bareText hash then some (.obj [("prev_hash", .ofOption hash)]) else none }
  chrono := sampleChrono

theorem written_and_read : ∀ hash ∈ bareHashes, linked bareCrates hash [] = bareText hash ∧
    (bareCrates.json.value (bareText hash)).map
      (fun value => (value.index "prev_hash").asStr) = some hash := by
  decide +kernel

/-- The record before two objects, before two objects and a torn line, and before a number. -/
def pairFile : String := joinLines [recordLine, "\x7b\x7d", "\x7b\x7d"]

def tornFile : String := joinLines [recordLine, "\x7b\x7d", "torn", "\x7b\x7d"]

def numberFile : String := joinLines [recordLine, "5"]

/-- The first object as it is written, and the second. -/
def firstText : String := bareText none

def secondText : String := bareText (some (lowerHex (.ofNat 1)))

theorem value_empty : bareCrates.json.value "\x7b\x7d" = some (.obj []) := rfl

theorem readsErased_pair : ReadsErased bareCrates ["\x7b\x7d", "\x7b\x7d"] where
  digits _ := not_mem_nil
  prevHash l hl members hmembers hash hhash := by
    have hknown : hash ∈ bareHashes := by
      rcases hhash with rfl | ⟨text, rfl⟩
      · simp [bareHashes]
      · rcases sampleDigest_mem text.toByteArray with h | h <;>
          simp [sha256Hex, bareCrates, h, bareHashes]
    obtain ⟨htext, hread⟩ := written_and_read hash hknown
    obtain ⟨value, hvalue, hprev⟩ := map_eq_some_iff.mp hread
    rw [← htext, linked] at hvalue
    obtain rfl : l = "\x7b\x7d" := by simpa using hl
    rw [value_empty] at hmembers
    cases hmembers
    exact ⟨value, hvalue, hprev⟩
  carriageReturn l hl htext := by
    obtain rfl : l = "\x7b\x7d" := by simpa using hl
    rw [value_empty] at htext
    cases htext

theorem erase_samples :
    keptLines bareCrates pairFile "203.0.113.7" = ["\x7b\x7d", "\x7b\x7d"] ∧
    eraseLines bareCrates pairFile "203.0.113.7" = .written [firstText, secondText] ∧
    CollisionFree sampleDigest
      ((chainLines (joinLines [firstText, secondText])).map String.toByteArray) ∧
    eraseLines bareCrates tornFile "203.0.113.7" = .written [firstText, "torn", secondText] ∧
    (Compliance.verifyHashChain bareCrates (joinLines [firstText, "torn", secondText])).1 = false ∧
    eraseLines bareCrates numberFile "203.0.113.7" = .panicked := by
  decide +kernel

theorem erasesCleanly_pair :
    eraseLines bareCrates pairFile "203.0.113.7" = .written [firstText, secondText] ∧
      ErasesCleanly bareCrates pairFile "203.0.113.7" := by
  obtain ⟨hkept, hwritten, hcollision, -⟩ := erase_samples
  refine ⟨hwritten, (erasesCleanly_iff bareCrates _ _ (hkept ▸ readsErased_pair)
    fun written h => ?_).mpr (.inr ?_)⟩
  · cases hwritten.symm.trans h
    exact hcollision
  · rw [hkept]
    refine ⟨fun l hl value hvalue => ?_, triplewise_pair ..⟩
    obtain rfl : l = "\x7b\x7d" := by simpa using hl
    rw [value_empty] at hvalue
    exact ⟨[], (Option.some.inj hvalue).symm⟩

/-- A torn line between two objects breaks the chain, and a number is a panic. -/
theorem torn_line_breaks_chain :
    ¬ ErasesCleanly bareCrates tornFile "203.0.113.7" ∧
      eraseLines bareCrates numberFile "203.0.113.7" = .panicked := by
  obtain ⟨-, -, -, hwritten, hbroken, hpanics⟩ := erase_samples
  refine ⟨?_, hpanics⟩
  rintro (h | ⟨written, h, -, hintact⟩)
  · cases hwritten.symm.trans h
  · cases hwritten.symm.trans h
    exact Bool.false_ne_true (hbroken.symm.trans hintact)

end Innerwarden.Gdpr
