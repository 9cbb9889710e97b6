import Innerwarden.Lib.Text

/-!
# When the health check skips the verification of certificates

`url_is_loopback_https` of `crates/supervisor/src/health.rs`, against the host that RFC 3986
gives a URL.  The function cuts off the user information before it looks for the end of the
authority, so an `@` in the path, the query or the fragment counts.
-/

namespace Innerwarden.Supervisor

open List Text

/-- What ends the authority of a URL. -/
def endsAuthority (c : Char) : Bool := c = '/' || c = '?' || c = '#'

/-- `rsplit_once('@')`: what follows the last `@`, or everything. -/
def afterUserinfo : List Char → List Char
  | [] => []
  | c :: cs => if '@' ∈ cs then afterUserinfo cs else if c = '@' then cs else c :: cs

def untilEnd (cs : List Char) : List Char := cs.takeWhile (!endsAuthority ·)

/-- The host of an authority: what stands in brackets, or before the first colon. -/
def hostOf (authority : List Char) : List Char :=
  match authority with
  | '[' :: a => if ']' ∈ a then a.takeWhile (· ≠ ']') else authority.takeWhile (· ≠ ':')
  | _ => authority.takeWhile (· ≠ ':')

def isLoopback (host : List Char) : Bool :=
  host = "127.0.0.1".toList || host = "localhost".toList || host = "::1".toList

def urlIsLoopbackHttps (url : String) : Bool :=
  match stripPrefix (trim url) "https://" with
  | some rest => isLoopback (hostOf (untilEnd (afterUserinfo rest.toList)))
  | none => false

/-! ## The host of RFC 3986 -/

/-- Nothing stands behind a bracketed host, or a port. -/
def portFollows (cs : List Char) : Bool := cs.head?.all (· = ':')

def rfcHost (hostPort : List Char) : Option (List Char) :=
  match hostPort with
  | '[' :: a =>
    if ']' ∈ a ∧ portFollows (a.dropWhile (· ≠ ']')).tail then some (a.takeWhile (· ≠ ']'))
    else none
  | _ => some (hostPort.takeWhile (· ≠ ':'))

def HasLoopbackHost (rest : List Char) : Prop :=
  ∃ host, rfcHost (afterUserinfo (untilEnd rest)) = some host ∧ isLoopback host = true

/-- Path, query and fragment. -/
def afterAuthority (rest : List Char) : List Char := rest.dropWhile (!endsAuthority ·)

/-- A loopback name in brackets with something behind it that is no port. -/
def Overrun (hostPort : List Char) : Prop :=
  match hostPort with
  | '[' :: a =>
    ']' ∈ a ∧ portFollows (a.dropWhile (· ≠ ']')).tail = false ∧
      isLoopback (a.takeWhile (· ≠ ']')) = true
  | _ => False

theorem takeWhile_untilEnd (a b : List Char) (ha : ∀ c ∈ a, endsAuthority c = false)
    (hb : ∀ c ∈ b.head?, endsAuthority c = true) : untilEnd (a ++ b) = a := by
  rw [untilEnd, takeWhile_append_of_pos fun c hc => by simp [ha c hc]]
  cases b with
  | nil => simp
  | cons c b => simp [hb c rfl]

theorem afterUserinfo_subset (cs : List Char) : afterUserinfo cs ⊆ cs := by
  induction cs with
  | nil => exact Subset.refl _
  | cons c cs ih =>
    rw [afterUserinfo]
    split
    · exact fun x hx => mem_cons_of_mem _ (ih hx)
    · split
      · exact subset_cons_self _ _
      · exact Subset.refl _

theorem afterUserinfo_append {a b : List Char} (hb : '@' ∉ b) :
    afterUserinfo (a ++ b) = afterUserinfo a ++ b := by
  induction a with
  | nil =>
    cases b with
    | nil => rfl
    | cons c b =>
      rw [mem_cons, not_or] at hb
      simp [afterUserinfo, hb.2, Ne.symm hb.1]
  | cons c a ih =>
    have hmem : '@' ∈ a ++ b ↔ '@' ∈ a := by simp [hb]
    rw [cons_append, afterUserinfo, afterUserinfo, ih]
    simp only [hmem]
    split
    · rfl
    · split <;> rfl

theorem afterUserinfo_append_of_mem (a : List Char) {b : List Char} (hb : '@' ∈ b) :
    afterUserinfo (a ++ b) = afterUserinfo b := by
  induction a with
  | nil => rfl
  | cons c a ih => rw [cons_append, afterUserinfo, if_pos (mem_append_right a hb), ih]

/-- The function reads the authority of the URL, unless an `@` stands behind it. -/
theorem untilEnd_afterUserinfo (rest : List Char) :
    untilEnd (afterUserinfo rest) =
      if '@' ∈ afterAuthority rest then untilEnd (afterUserinfo (afterAuthority rest))
      else afterUserinfo (untilEnd rest) := by
  have hrest : untilEnd rest ++ afterAuthority rest = rest := takeWhile_append_dropWhile
  split
  case isTrue hat =>
    conv_lhs => rw [← hrest, afterUserinfo_append_of_mem _ hat]
  case isFalse hat =>
    conv_lhs => rw [← hrest, afterUserinfo_append hat]
    apply takeWhile_untilEnd
    · intro c hc
      simpa using mem_takeWhile_imp (afterUserinfo_subset _ hc)
    · intro c hc
      have := head?_dropWhile_not (!endsAuthority ·) rest
      rw [afterAuthority] at hc
      rw [hc] at this
      simpa using this

theorem bracket_notMem {host : List Char} (h : isLoopback host = true) : '[' ∉ host := by
  simp only [isLoopback, Bool.or_eq_true, decide_eq_true_eq] at h
  rcases h with (rfl | rfl) | rfl <;> decide

/-- Of one authority the two readings differ on an overrun only. -/
theorem loopback_hostOf_iff (hostPort : List Char) :
    isLoopback (hostOf hostPort) = true ↔
      (∃ host, rfcHost hostPort = some host ∧ isLoopback host = true) ∨ Overrun hostPort := by
  unfold hostOf rfcHost Overrun
  split
  case h_1 a =>
    by_cases hclose : ']' ∈ a
    · cases portFollows (a.dropWhile (· ≠ ']')).tail <;> simp [hclose]
    · simp only [hclose, false_and, if_false, reduceCtorEq, exists_const, or_self, iff_false]
      exact fun h => bracket_notMem h (by simp)
  case h_2 => simp

theorem eq_append_of_stripPrefix {s pre rest : String} (h : stripPrefix s pre = some rest) :
    s = pre ++ rest := by
  unfold stripPrefix at h
  split at h
  case isTrue hpre =>
    cases h
    obtain ⟨r, hr⟩ := List.isPrefixOf_iff_prefix.1 hpre
    rw [← String.toList_inj, String.toList_append, String.toList_ofList, ← hr, drop_left]
  case isFalse => cases h

theorem loopback_only_iff (url : String) :
    (urlIsLoopbackHttps url = true →
      ∃ rest, trim url = "https://" ++ rest ∧ HasLoopbackHost rest.toList) ↔
    ∀ rest, trim url = "https://" ++ rest → HasLoopbackHost rest.toList ∨
      if '@' ∈ afterAuthority rest.toList then
        isLoopback (hostOf (untilEnd (afterUserinfo (afterAuthority rest.toList)))) = false
      else ¬Overrun (afterUserinfo (untilEnd rest.toList)) := by
  cases hstrip : stripPrefix (trim url) "https://" with
  | none =>
    have hno : ∀ rest, trim url ≠ "https://" ++ rest := by
      intro rest hrest
      rw [hrest, stripPrefix_append] at hstrip
      cases hstrip
    simp [urlIsLoopbackHttps, hstrip, hno]
  | some rest =>
    rw [urlIsLoopbackHttps, hstrip, eq_append_of_stripPrefix hstrip]
    simp only [String.append_right_inj, exists_eq_left', forall_eq']
    rw [untilEnd_afterUserinfo]
    split
    case isTrue hat =>
      cases isLoopback (hostOf (untilEnd (afterUserinfo (afterAuthority rest.toList)))) <;> simp
    case isFalse hat =>
      have hread := loopback_hostOf_iff (afterUserinfo (untilEnd rest.toList))
      constructor
      · intro h
        by_cases hover : Overrun (afterUserinfo (untilEnd rest.toList))
        · exact .inl (h (hread.2 (.inr hover)))
        · exact .inr hover
      · rintro (hhost | hover) hloop
        · exact hhost
        · exact (hread.1 hloop).resolve_right hover

theorem loopback_in_path :
    urlIsLoopbackHttps "https://evil.example/@127.0.0.1" = true ∧
      rfcHost (afterUserinfo (untilEnd "evil.example/@127.0.0.1".toList)) =
        some "evil.example".toList := by
  decide +kernel

end Innerwarden.Supervisor
