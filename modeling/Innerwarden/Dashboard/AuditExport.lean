import Mathlib.Data.List.Sort
import Innerwarden.Lib.Digest
import Innerwarden.Lib.Json
import Innerwarden.Lib.Text

/-!
# The signed audit export

`crates/agent/src/dashboard/audit_export_csv.rs`, with the signer of `audit_export_signing.rs`.
An export is a header of lines that begin with `#`, a line of columns and a row for each entry
of the journey.  Its signature is over the SHA-256 of the snapshot's canonical JSON.

A recipient is told to remove the line of the signature and to verify the signature over what
is left.  `documentedCheck` is that check, over the text or over its SHA-256.  What is left
begins with `#`, and neither the hash nor the JSON does, so every export is rejected
(`documentedCheck_exportText`).

SHA-256, base64 and ed25519 are parameters.
-/

namespace Innerwarden.AuditExport

open Digest Text List

/-! ## Canonical JSON -/

mutual

/-- `sort_value_keys`: every object with its keys in order. -/
def sortValueKeys : Json → Json
  | .obj members => .obj ((sortMembers members).insertionSort fun a b => a.1 ≤ b.1)
  | .arr items => .arr (sortItems items)
  | .null => .null
  | .bool b => .bool b
  | .int n => .int n
  | .float bits => .float bits
  | .str s => .str s

def sortItems : List Json → List Json
  | [] => []
  | v :: vs => sortValueKeys v :: sortItems vs

def sortMembers : List (String × Json) → List (String × Json)
  | [] => []
  | (key, v) :: ms => (key, sortValueKeys v) :: sortMembers ms

end

def withoutGeneratedAt : Json → Json
  | .obj members => .obj (members.filter fun m => m.1 ≠ "generated_at")
  | v => v

/-- The crates the export calls. -/
structure Crates where
  sha256 : ByteArray → Digest
  json : JsonCodec
  /-- `STANDARD_NO_PAD.encode`. -/
  encode : ByteArray → String
  /-- `STANDARD_NO_PAD.decode`. -/
  decode : String → Option ByteArray

/-- A key pair: its public key, and what ed25519 does with it. -/
structure SigningKey where
  publicKey : ByteArray
  sign : ByteArray → ByteArray
  /-- Verification with the public key. -/
  verify : ByteArray → ByteArray → Bool

section Export

variable (crates : Crates)

def canonicalizeForHash (snapshot : Json) : String :=
  crates.json.toString (sortValueKeys (withoutGeneratedAt snapshot))

def sha256Hex (text : String) : String := lowerHex (crates.sha256 text.toByteArray)

def computeReproducibilityHash (snapshot : Json) : String :=
  sha256Hex crates (canonicalizeForHash crates snapshot)

/-! ## Rows -/

def csvQuote (cell : String) : String :=
  if cell.toList.any fun c => c = ',' || c = '\x22' || c = '\r' || c = '\n' then
    "\x22" ++ String.ofList (cell.toList.flatMap fun c => if c = '\x22' then [c, c] else [c]) ++
      "\x22"
  else cell

def columns : List String :=
  ["ts", "kind", "severity", "detector", "incident_id", "action_type", "target_ip", "confidence",
   "execution_result", "decision_layer", "decision_layer_detail", "reason"]

/-- A string member, or the empty string. -/
def strOrEmpty (v : Json) (key : String) : String := ((v.get key).bind Json.asStr).getD ""

def cellText : Json → String
  | .str s => s
  | .null => ""
  | other => crates.json.toString other

def renderEntryRow (entry : Json) : String :=
  let data := (entry.get "data").getD .null
  let getStr := fun key => ((data.get key).map (cellText crates)).getD ""
  let cells := [strOrEmpty entry "ts", strOrEmpty entry "kind"] ++
    ["severity", "detector", "incident_id", "action_type", "target_ip", "confidence",
     "execution_result", "decision_layer", "decision_layer_detail", "reason"].map getStr
  ",".intercalate (cells.map csvQuote)

def rows (snapshot : Json) : List String :=
  match ((snapshot.get "journey").bind (Json.get "entries")).bind Json.asArray with
  | some entries => entries.map (renderEntryRow crates)
  | none => []

/-! ## The header -/

def flattenFiltersForHeader (filters : Json) : String :=
  match filters.asObject with
  | none => ""
  | some members =>
    ", ".intercalate (members.filterMap fun m =>
      match m.2 with
      | .null => none
      | .str s => if s = "" then none else some (m.1 ++ "=" ++ s)
      | other => some (m.1 ++ "=" ++ crates.json.toString other))

def title : String := "# InnerWarden Audit Export (spec 049 PR11)"

/-- The header above the signature. -/
def metadataLines (snapshot : Json) : List String :=
  let subject := strOrEmpty snapshot "subject"
  let filters := ((snapshot.get "filters").map (flattenFiltersForHeader crates)).getD ""
  [title,
   "# Generated: " ++ strOrEmpty snapshot "generated_at",
   "# Period: " ++ strOrEmpty snapshot "date"] ++
  (if subject = "" then []
   else ["# Subject: " ++ strOrEmpty snapshot "subject_type" ++ ":" ++ subject]) ++
  (if filters = "" then [] else ["# Filters: " ++ filters]) ++
  ["# Reproducibility hash (SHA-256, excludes generated_at): " ++
     computeReproducibilityHash crates snapshot,
   "# Same period+filters+cases produce the same hash; verify via re-export to confirm " ++
     "content integrity."]

/-- `public_key_fingerprint`: the first eight bytes of the key's SHA-256. -/
def publicKeyFingerprint (key : SigningKey) : String :=
  String.ofList (hexChars ((crates.sha256 key.publicKey).toList.take 8))

def signBase64 (key : SigningKey) (text : String) : String :=
  crates.encode (key.sign text.toByteArray)

def signatureLabel : String := "# Signature (ed25519, detached, base64): "

def verificationRecipeLines : List String :=
  ["# To verify: strip the \x60# Signature\x60 line, base64-decode the value,",
   "# obtain the operator's audit-signing.pub (from /api/audit-signing/public-key),",
   "# verify with \x60openssl pkeyutl -verify -pubin -inkey <pubkey.pem> ...\x60",
   "# or \x60cosign verify-blob --key <pubkey> --signature <sig.bin> <unsigned.csv>\x60."]

def signatureLine (key : SigningKey) (snapshot : Json) : String :=
  signatureLabel ++ signBase64 crates key (computeReproducibilityHash crates snapshot)

def signatureLines (key : SigningKey) (snapshot : Json) : List String :=
  ["# Public key fingerprint: " ++ publicKeyFingerprint crates key,
   signatureLine crates key snapshot] ++
  verificationRecipeLines

/-! ## The text -/

def exportText (header rows : List String) : String :=
  joinLines header ++ ("\n" ++ ",".intercalate columns ++ "\n" ++ joinLines rows)

def header (snapshot : Json) (signer : Option SigningKey) : List String :=
  metadataLines crates snapshot ++
    match signer with
    | none => []
    | some key => signatureLines crates key snapshot

def renderCsvExportInner (snapshot : Json) (signer : Option SigningKey) : String :=
  exportText (header crates snapshot signer) (rows crates snapshot)

def renderCsvExportSigned (snapshot : Json) (key : SigningKey) : String :=
  renderCsvExportInner crates snapshot (some key)

/-! ## The check of a recipient -/

def isSignatureLine (l : String) : Bool := startsWith l "# Signature"

def rejoin : List String → String
  | [] => ""
  | [l] => l
  | l :: ls => l ++ "\n" ++ rejoin ls

def unsignedText (text : String) : String :=
  rejoin ((split '\n' text).filter fun l => !isSignatureLine l)

/-- The documented check: the text has one line of a signature, and its value verifies over what
is left of the text or over the SHA-256 of that. -/
def documentedCheck (key : SigningKey) (text : String) : Bool :=
  match (split '\n' text).filter isSignatureLine with
  | [line] =>
    match (stripPrefix line signatureLabel).bind crates.decode with
    | none => false
    | some signature =>
      key.verify signature (unsignedText text).toByteArray ||
        key.verify signature (sha256Hex crates (unsignedText text)).toByteArray
  | _ => false

/-- The check accepts the export, and no text with other rows. -/
def TamperEvident (key : SigningKey) (snapshot : Json) : Prop :=
  documentedCheck crates key (renderCsvExportSigned crates snapshot key) = true ∧
    ∀ others, others ≠ rows crates snapshot →
      documentedCheck crates key (exportText (header crates snapshot (some key)) others) = false

/-! ## It rejects every export -/

/-- What is assumed of the crates: base64 is read back and has no line feed, the signature
verifies for the bytes that were signed, no other text has the hash of the snapshot, and a number
does not begin as a comment does. -/
structure Ideal (key : SigningKey) (snapshot : Json) : Prop where
  decode : ∀ bytes, crates.decode (crates.encode bytes) = some bytes
  encode : ∀ bytes, '\n' ∉ (crates.encode bytes).toList
  verify : ∀ signed bytes, key.verify (key.sign signed) bytes = true ↔ bytes = signed
  collision : ∀ text : String,
    crates.sha256 text.toByteArray =
        crates.sha256 (canonicalizeForHash crates snapshot).toByteArray →
      text = canonicalizeForHash crates snapshot
  number : ∀ bits, (crates.json.formatF64 bits).toList.head? ≠ some '#'

/-- The text of a value does not begin as a comment does. -/
theorem head?_toText (hnumber : ∀ bits, (crates.json.formatF64 bits).toList.head? ≠ some '#')
    (v : Json) : (crates.json.toString v).toList.head? ≠ some '#' := by
  cases v with
  | null => exact (by decide : "null".toList.head? ≠ some '#')
  | bool b =>
    cases b with
    | false => exact (by decide : "false".toList.head? ≠ some '#')
    | true => exact (by decide : "true".toList.head? ≠ some '#')
  | int n =>
    have hdigits : ∀ m : Nat, '#' ∉ m.repr.toList := by
      intro m hmem
      rw [Nat.toList_repr] at hmem
      exact absurd (Nat.isDigit_of_mem_toDigits (by decide) (by decide) hmem) (by decide)
    cases n with
    | ofNat m => exact fun h => hdigits m (mem_of_head? h)
    | negSucc m =>
      show ("-" ++ (m + 1).repr).toList.head? ≠ some '#'
      simp
  | float bits => exact hnumber bits
  | str s => simp [JsonCodec.toString, Json.toText, Json.quote]
  | arr items => simp [JsonCodec.toString, Json.toText]
  | obj members => simp [JsonCodec.toString, Json.toText, Json.objectText]

theorem head?_lowerHex (d : Digest) : (lowerHex d).toList.head? ≠ some '#' := by
  have hdigits : ∀ n < 16, hexDigit n ≠ '#' := by decide
  rw [lowerHex, String.toList_ofList]
  cases d.toList with
  | nil => exact fun h => by cases h
  | cons b bs =>
    intro h
    exact hdigits (b.toNat / 16) (by have := b.toNat_lt; omega) (Option.some.inj h)

theorem mem_split_joinLines {l : String} (hl : '\n' ∉ l.toList) {header : List String}
    (hmem : l ∈ header) (rest : String) : l ∈ split '\n' (joinLines header ++ rest) := by
  induction header with
  | nil => cases hmem
  | cons k header ih =>
    have htext : joinLines (k :: header) ++ rest = k ++ "\n" ++ (joinLines header ++ rest) := by
      rw [joinLines, foldr_cons, ← joinLines, String.append_assoc]
    rw [htext]
    rcases mem_cons.mp hmem with rfl | hmem
    · rw [split_line_append hl]
      exact mem_cons_self
    · exact mem_split_append k _ (ih hmem)

theorem head?_rejoin {l : String} {c : Char} (hl : l.toList.head? = some c) (ls : List String) :
    (rejoin (l :: ls)).toList.head? = some c := by
  cases ls with
  | nil => exact hl
  | cons k ls => simp [rejoin, head?_append, hl]

theorem header_eq (snapshot : Json) (key : SigningKey) :
    ∃ more, header crates snapshot (some key) = title :: more :=
  ⟨_, rfl⟩

theorem head?_unsignedText (snapshot : Json) (key : SigningKey) (others : List String) :
    (unsignedText (exportText (header crates snapshot (some key)) others)).toList.head? =
      some '#' := by
  obtain ⟨more, hmore⟩ := header_eq crates snapshot key
  have htext : exportText (header crates snapshot (some key)) others = title ++ "\n" ++
      (joinLines more ++ ("\n" ++ ",".intercalate columns ++ "\n" ++ joinLines others)) := by
    rw [hmore, exportText, joinLines, foldr_cons, ← joinLines, String.append_assoc]
  rw [unsignedText, htext, split_line_append (by decide), filter_cons_of_pos (by decide)]
  exact head?_rejoin (by decide) _

/-- The check rejects the export, with any rows. -/
theorem documentedCheck_exportText {key : SigningKey} {snapshot : Json}
    (h : Ideal crates key snapshot) (others : List String) :
    documentedCheck crates key (exportText (header crates snapshot (some key)) others) =
      false := by
  have hhead := head?_unsignedText crates snapshot key others
  have hline : signatureLine crates key snapshot ∈
      split '\n' (exportText (header crates snapshot (some key)) others) := by
    refine mem_split_joinLines ?_ ?_ _
    · rw [signatureLine, String.toList_append, mem_append, not_or]
      exact ⟨by decide, h.encode _⟩
    · exact mem_append_right _ (mem_cons_of_mem _ mem_cons_self)
  generalize exportText (header crates snapshot (some key)) others = text at hhead hline ⊢
  unfold documentedCheck
  split
  next line hlines =>
    have hsignature : line = signatureLine crates key snapshot := by
      have hmem : signatureLine crates key snapshot ∈ (split '\n' text).filter isSignatureLine :=
        mem_filter.mpr ⟨hline, startsWith_append_of_le (by decide) _⟩
      rw [hlines] at hmem
      exact (mem_singleton.mp hmem).symm
    rw [hsignature, signatureLine, stripPrefix_append, Option.bind_some, signBase64, h.decode]
    show (_ || _) = false
    rw [Bool.or_eq_false_iff, ← Bool.not_eq_true, ← Bool.not_eq_true, h.verify, h.verify,
      String.toByteArray_inj, String.toByteArray_inj]
    constructor
    · intro htext
      rw [htext] at hhead
      exact head?_lowerHex _ hhead
    · intro hhash
      have hcollision := h.collision _ (lowerHex_injective hhash)
      rw [hcollision] at hhead
      exact head?_toText crates h.number _ hhead
  next => rfl

end Export

/-- The check does not make an export tamper-evident. -/
theorem not_tamperEvident (crates : Crates) (key : SigningKey) (snapshot : Json)
    (h : Ideal crates key snapshot) : ¬ TamperEvident crates key snapshot := by
  rintro ⟨haccepts, -⟩
  have hrejects := documentedCheck_exportText crates h (rows crates snapshot)
  rw [renderCsvExportSigned, renderCsvExportInner, hrejects] at haccepts
  cases haccepts

/-! ## Two exports -/

/-- The characters for the bytes, from `@` on. -/
def sampleEncode (bytes : ByteArray) : String :=
  String.ofList (bytes.data.toList.map fun b => Char.ofNat (b.toNat + 64))

def sampleDecode (text : String) : Option ByteArray :=
  some ⟨(text.toList.map fun c => UInt8.ofNat (c.toNat - 64)).toArray⟩

def sampleText (snapshot : Json) : String :=
  (sortValueKeys (withoutGeneratedAt snapshot)).toText fun _ => ""

def sampleCrates (snapshot : Json) : Crates where
  sha256 bytes :=
    if bytes.data = (sampleText snapshot).toByteArray.data then .ofNat 1 else .ofNat 0
  json := ⟨fun _ => "", fun _ => "", fun _ => none⟩
  encode := sampleEncode
  decode := sampleDecode

def sampleKey : SigningKey := ⟨.empty, id, fun signature bytes => signature.data = bytes.data⟩

theorem sampleChar : ∀ n < 256,
    UInt8.ofNat ((Char.ofNat (n + 64)).toNat - 64) = UInt8.ofNat n ∧
      Char.ofNat (n + 64) ≠ '\n' := by
  decide +kernel

theorem ideal_sampleCrates (snapshot : Json) :
    Ideal (sampleCrates snapshot) sampleKey snapshot where
  decode bytes := by
    have hchars : (sampleEncode bytes).toList.map (fun c => UInt8.ofNat (c.toNat - 64)) =
        bytes.data.toList := by
      rw [sampleEncode, String.toList_ofList, map_map]
      refine (map_congr_left fun b _ => ?_).trans (map_id _)
      exact (sampleChar b.toNat b.toNat_lt).1.trans UInt8.ofNat_toNat
    show sampleDecode (sampleEncode bytes) = some bytes
    rw [sampleDecode, hchars, Array.toArray_toList]
  encode bytes := by
    show '\n' ∉ (sampleEncode bytes).toList
    rw [sampleEncode, String.toList_ofList]
    intro hmem
    obtain ⟨b, -, hb⟩ := mem_map.mp hmem
    exact (sampleChar b.toNat b.toNat_lt).2 hb
  verify signed bytes := by
    show decide (signed.data = bytes.data) = true ↔ bytes = signed
    rw [decide_eq_true_iff, ← ByteArray.ext_iff, eq_comm]
  collision text h := by
    by_contra hne
    have hdata : text.toByteArray.data ≠ ((sampleText snapshot).toByteArray).data := fun hdata =>
      hne (String.toByteArray_inj.mp (ByteArray.ext hdata))
    have hdigests : (if text.toByteArray.data = (sampleText snapshot).toByteArray.data
          then Digest.ofNat 1 else .ofNat 0) =
        (if (sampleText snapshot).toByteArray.data = (sampleText snapshot).toByteArray.data
          then Digest.ofNat 1 else .ofNat 0) := h
    rw [if_neg hdata, if_pos rfl] at hdigests
    exact absurd hdigests (by decide)
  number bits := fun h => by cases h

/-- The check rejects an export with a row. -/
theorem not_tamperEvident_row :
    ¬ TamperEvident
      (sampleCrates (.obj [("journey", .obj [("entries", .arr [.obj [("ts", .str "t")]])])]))
      sampleKey (.obj [("journey", .obj [("entries", .arr [.obj [("ts", .str "t")]])])]) :=
  not_tamperEvident _ _ _ (ideal_sampleCrates _)

/-- The check rejects the export of an empty snapshot. -/
theorem empty_export_is_rejected :
    ¬ TamperEvident (sampleCrates (.obj [])) sampleKey (.obj []) := by
  rintro ⟨haccepts, -⟩
  have hrejects := documentedCheck_exportText _ (ideal_sampleCrates (.obj []))
    (rows (sampleCrates (.obj [])) (.obj []))
  rw [renderCsvExportSigned, renderCsvExportInner, hrejects] at haccepts
  cases haccepts

end Innerwarden.AuditExport
