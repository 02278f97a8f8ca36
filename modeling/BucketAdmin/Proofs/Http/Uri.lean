import Mathlib.Data.List.DropRight
import BucketAdmin.Http.Uri
import BucketAdmin.Proofs.Except

/-!
# URIs taken apart

A URI with a scheme is read in three pieces: the scheme, the authority, and what follows it up to
the end (`Anatomy`). The first two end at the first character that cannot belong to them (`Cut`),
so they are found again whatever follows the authority (`Cut.parse_eq`), and any text that is read
as a URI with a scheme comes apart like that (`exists_cut`). Only what follows the authority
decides the path and the query.
-/

namespace BucketAdmin.Http.Uri

section Lists

variable {α : Type} {p : α → Bool} {l r : List α}

/-- What is taken ends where the first other character stands. -/
theorem takeWhile_append_of_stop (hl : ∀ c ∈ l, p c = true) (hr : ∀ c ∈ r.head?, p c = false) :
    (l ++ r).takeWhile p = l := by
  rw [List.takeWhile_append_of_pos hl]
  cases r with
  | nil => rw [List.takeWhile_nil, List.append_nil]
  | cons c r =>
    have hc : ¬p c = true := Bool.eq_false_iff.mp (hr c rfl)
    rw [List.takeWhile_cons_of_neg hc, List.append_nil]

theorem dropWhile_append_of_stop (hl : ∀ c ∈ l, p c = true) (hr : ∀ c ∈ r.head?, p c = false) :
    (l ++ r).dropWhile p = r := by
  rw [List.dropWhile_append_of_pos hl]
  cases r with
  | nil => exact List.dropWhile_nil
  | cons c r => exact List.dropWhile_cons_of_neg (Bool.eq_false_iff.mp (hr c rfl))

/-- Nothing is dropped from behind past a character that stays. -/
theorem rdropWhile_append_of_last (hl : ∀ h : l ≠ [], ¬p (l.getLast h) = true) :
    (l ++ r).rdropWhile p = l ++ r.rdropWhile p := by
  induction r using List.reverseRecOn with
  | nil =>
    rw [List.append_nil, List.rdropWhile_nil, List.append_nil]
    exact List.rdropWhile_eq_self_iff.mpr hl
  | append_singleton r c ih =>
    rw [← List.append_assoc, List.rdropWhile_concat, List.rdropWhile_concat]
    split
    · exact ih
    · exact List.append_assoc l r [c]

end Lists

/-- The characters of a URI with a scheme, in three pieces. -/
structure Anatomy where
  scheme : List Char
  authority : List Char
  /-- What follows the authority. -/
  rest : List Char

namespace Anatomy

/-- All characters, in order. -/
def chars (a : Anatomy) : List Char := a.scheme ++ ("://".toList ++ (a.authority ++ a.rest))

/-- The pieces end where a reader ends them. -/
structure Cut (a : Anatomy) : Prop where
  scheme : ∀ c ∈ a.scheme, isSchemeChar c = true
  authority : ∀ c ∈ a.authority, endsAuthority c = false
  rest : ∀ c ∈ a.rest.head?, endsAuthority c = true

variable {a b : Anatomy} {text : String} {uri : Uri}

/-- The name of a scheme, `http` and `https` in lower case. -/
def schemeName (scheme : List Char) : Except UriFault String :=
  let lower := String.ofList (scheme.map Char.toLower)
  if lower = "http" ∨ lower = "https" then .ok lower
  else if maxSchemeLength < scheme.length then .error .illFormed
  else .ok (String.ofList scheme)

namespace Cut

theorem dropWhile_scheme (h : a.Cut) :
    a.chars.dropWhile isSchemeChar = "://".toList ++ (a.authority ++ a.rest) := by
  refine dropWhile_append_of_stop h.scheme fun c hc => ?_
  obtain rfl : ':' = c := Option.some.inj hc
  rfl

theorem takeWhile_scheme (h : a.Cut) : a.chars.takeWhile isSchemeChar = a.scheme := by
  refine takeWhile_append_of_stop h.scheme fun c hc => ?_
  obtain rfl : ':' = c := Option.some.inj hc
  rfl

theorem takeWhile_authority (h : a.Cut) :
    (a.authority ++ a.rest).takeWhile (fun c => !endsAuthority c) = a.authority := by
  refine takeWhile_append_of_stop (fun c hc => ?_) fun c hc => ?_
  · rw [h.authority c hc, Bool.not_false]
  · rw [h.rest c hc, Bool.not_true]

theorem dropWhile_authority (h : a.Cut) :
    (a.authority ++ a.rest).dropWhile (fun c => !endsAuthority c) = a.rest := by
  refine dropWhile_append_of_stop (fun c hc => ?_) fun c hc => ?_
  · rw [h.authority c hc, Bool.not_false]
  · rw [h.rest c hc, Bool.not_true]

/-- A text is cut in one way. -/
theorem rest_eq (ha : a.Cut) (hb : b.Cut) (h : a.chars = b.chars) : a.rest = b.rest := by
  have hafter : a.authority ++ a.rest = b.authority ++ b.rest := by
    have hdrop := congrArg (List.dropWhile isSchemeChar) h
    rw [ha.dropWhile_scheme, hb.dropWhile_scheme] at hdrop
    exact List.append_cancel_left hdrop
  rw [← ha.dropWhile_authority, hafter, hb.dropWhile_authority]

theorem splitScheme_chars (h : a.Cut) :
    splitScheme a.chars =
      (schemeName a.scheme).map fun name => (some name, a.authority ++ a.rest) := by
  have hlead : "://".toList.isPrefixOf? ("://".toList ++ (a.authority ++ a.rest)) =
      some (a.authority ++ a.rest) :=
    List.isPrefixOf?_eq_some_iff_append_eq.mpr rfl
  simp only [splitScheme, h.dropWhile_scheme, h.takeWhile_scheme, hlead, schemeName]
  split
  · rfl
  · split <;> rfl

theorem head_ne_slash (h : a.Cut) : a.chars.head? ≠ some '/' := by
  rw [chars]
  cases hs : a.scheme with
  | nil => exact fun hc => nomatch hc
  | cons c cs =>
    intro hc
    obtain rfl : c = '/' := Option.some.inj hc
    exact nomatch h.scheme '/' (hs ▸ List.mem_cons_self)

theorem length_chars (a : Anatomy) : 3 ≤ a.chars.length := by
  rw [chars, List.length_append, List.length_append]
  exact Nat.le_trans (Nat.le_add_right 3 _) (Nat.le_add_left _ _)

/-- Only what follows the authority decides the path and the query. -/
theorem parse_eq (h : a.Cut) (htext : text.toList = a.chars) :
    parse text =
      if maxLength < (Utf8.encode text).length then .error .tooLong
      else schemeName a.scheme >>= fun scheme =>
        if !isAuthority a.authority || a.authority.isEmpty then .error .illFormed
        else pathAndQuery a.rest >>= fun (path, query) =>
          .ok ⟨some scheme, some (String.ofList a.authority), path, query⟩ := by
  have hlong : ∀ {short : String}, short.toList.length < 3 → text ≠ short := by
    rintro short hshort rfl
    rw [htext] at hshort
    exact Nat.not_lt.mpr (length_chars a) hshort
  have hempty : text ≠ "" := hlong (by decide)
  have hstar : text ≠ "*" := hlong (by decide)
  simp only [parse, hempty, hstar, if_false, htext, h.head_ne_slash, h.splitScheme_chars]
  refine ite_congr rfl (fun _ => rfl) fun _ => ?_
  cases schemeName a.scheme with
  | error f => rfl
  | ok name =>
    simp only [Except.map, ok_bind, h.takeWhile_authority, h.dropWhile_authority]

end Cut

theorem splitScheme_eq_some {cs rest : List Char} {name : String}
    (h : splitScheme cs = .ok (some name, rest)) :
    cs = cs.takeWhile isSchemeChar ++ ("://".toList ++ rest) := by
  unfold splitScheme at h
  dsimp only at h
  split at h
  · cases h
  · next rest' hrest =>
    have hcs : cs = cs.takeWhile isSchemeChar ++ ("://".toList ++ rest') := by
      rw [List.isPrefixOf?_eq_some_iff_append_eq.mp hrest, List.takeWhile_append_dropWhile]
    split at h
    · cases h
      exact hcs
    · split at h
      · cases h
      · cases h
        exact hcs

/-- What is read as a URI with a scheme comes apart, and each piece is read by itself. -/
theorem exists_cut (h : parse text = .ok uri) (hscheme : uri.scheme ≠ none) :
    ∃ a : Anatomy, a.Cut ∧ text.toList = a.chars := by
  unfold parse at h
  dsimp only at h
  split at h
  · cases h
  split at h
  · cases h
  split at h
  · cases h
    exact absurd rfl hscheme
  split at h
  · obtain ⟨⟨path, query⟩, -, h⟩ := bind_eq_ok.mp h
    cases h
    exact absurd rfl hscheme
  obtain ⟨⟨scheme, rest⟩, hsplit, h⟩ := bind_eq_ok.mp h
  cases scheme with
  | none =>
    dsimp only at h
    split at h
    · cases h
    · split at h
      · cases h
        exact absurd rfl hscheme
      · cases h
  | some name =>
    let ends : Char → Bool := fun c => !endsAuthority c
    refine ⟨⟨text.toList.takeWhile isSchemeChar, rest.takeWhile ends, rest.dropWhile ends⟩,
      ⟨fun c => List.mem_takeWhile_imp, fun c hc => ?_, fun c hc => ?_⟩, ?_⟩
    · have hin : ends c = true := List.mem_takeWhile_imp hc
      exact (Bool.not_eq_true' _).mp hin
    · have hhead := List.head?_dropWhile_not ends rest
      rw [hc] at hhead
      exact (Bool.not_eq_false' _).mp hhead
    · rw [chars, List.takeWhile_append_dropWhile]
      exact splitScheme_eq_some hsplit

/-- The same scheme and authority, followed by something else. -/
def followedBy (a : Anatomy) (rest : List Char) : Anatomy := { a with rest }

namespace Cut

variable {url : String} {rest : List Char}

/-- Where a text is read as a URI, so is one that follows its authority by something else, as far as
what follows makes a path and a query. -/
theorem parse_followedBy (h : a.Cut) (htext : text.toList = a.chars) (huri : parse text = .ok uri)
    (hcut : (a.followedBy rest).Cut) (hurl : url.toList = (a.followedBy rest).chars) :
    parse url =
      if maxLength < (Utf8.encode url).length then .error .tooLong
      else (pathAndQuery rest).map fun parts =>
        ⟨uri.scheme, uri.authority, parts.1, parts.2⟩ := by
  rw [h.parse_eq htext] at huri
  split at huri
  · cases huri
  obtain ⟨name, hname, huri⟩ := bind_eq_ok.mp huri
  split at huri
  · cases huri
  next hauthority =>
  obtain ⟨parts, -, huri⟩ := bind_eq_ok.mp huri
  cases huri
  rw [hcut.parse_eq hurl]
  refine ite_congr rfl (fun _ => rfl) fun _ => ?_
  have hname' : schemeName (a.followedBy rest).scheme = .ok name := hname
  rw [hname', ok_bind]
  refine (if_neg hauthority).trans ?_
  cases hrest : pathAndQuery rest <;> simp only [followedBy, hrest] <;> rfl

theorem authority_ne_nil (h : a.Cut) (htext : text.toList = a.chars)
    (huri : parse text = .ok uri) : a.authority ≠ [] := by
  rw [h.parse_eq htext] at huri
  split at huri
  · cases huri
  obtain ⟨name, -, huri⟩ := bind_eq_ok.mp huri
  split at huri
  · cases huri
  next hauthority =>
  intro hnil
  refine hauthority ?_
  rw [hnil, List.isEmpty_nil, Bool.or_true]

/-- Slashes at the end of a URI are not part of its authority. -/
theorem rdropWhile_chars (h : a.Cut) (hne : a.authority ≠ []) :
    a.chars.rdropWhile (· == '/') = (a.followedBy (a.rest.rdropWhile (· == '/'))).chars := by
  have hassoc : ∀ rest : List Char, (a.followedBy rest).chars =
      (a.scheme ++ ("://".toList ++ a.authority)) ++ rest := by
    intro rest
    simp only [chars, followedBy, List.append_assoc]
  have hlast : ∀ hl : a.scheme ++ ("://".toList ++ a.authority) ≠ [],
      ¬(((a.scheme ++ ("://".toList ++ a.authority)).getLast hl) == '/') = true := by
    intro hl
    have hne' : "://".toList ++ a.authority ≠ [] := List.append_ne_nil_of_right_ne_nil _ hne
    rw [List.getLast_append_of_ne_nil hl hne', List.getLast_append_of_ne_nil hne' hne, beq_iff_eq]
    intro hslash
    have hends := h.authority _ (List.getLast_mem hne)
    rw [hslash] at hends
    cases hends
  exact (congrArg _ (hassoc a.rest)).trans
    ((rdropWhile_append_of_last hlast).trans (hassoc _).symm)

/-- A path may stand in place of the slashes at the end. -/
theorem routed (h : a.Cut) {path : List Char} (hpath : path.head? = some '/') :
    (a.followedBy (a.rest.rdropWhile (· == '/') ++ path)).Cut where
  scheme := h.scheme
  authority := h.authority
  rest := by
    intro c hc
    obtain ⟨dropped, hdropped⟩ := List.rdropWhile_prefix (· == '/') a.rest
    cases hrest : a.rest.rdropWhile (· == '/') with
    | nil =>
      rw [followedBy, hrest, List.nil_append, hpath] at hc
      obtain rfl := Option.some.inj hc
      rfl
    | cons x rest =>
      rw [followedBy, hrest] at hc
      obtain rfl : x = c := Option.some.inj hc
      refine h.rest x ?_
      rw [← hdropped, hrest]
      rfl

end Cut

end Anatomy

/-! ## Paths and queries -/

theorem ne_of_isPathChar {c : Char} (h : isPathChar c = true) : c ≠ '#' ∧ c ≠ '?' := by
  constructor
  · rintro rfl
    cases h
  · rintro rfl
    cases h

theorem takeWhile_fragment {cs : List Char} (h : ∀ c ∈ cs, isPathChar c = true) :
    cs.takeWhile (· ≠ '#') = cs :=
  List.takeWhile_eq_self_iff.mpr fun c hc => decide_eq_true (ne_of_isPathChar (h c hc)).1

/-- Characters of a path are a path, and no query. -/
theorem pathAndQuery_of_isPathChar {path : String} (hne : path.toList ≠ [])
    (h : ∀ c ∈ path.toList, isPathChar c = true) :
    pathAndQuery path.toList = .ok (path, none) := by
  have hquery : ∀ c ∈ path.toList, decide (c ≠ '?') = true := fun c hc =>
    decide_eq_true (ne_of_isPathChar (h c hc)).2
  have hpath : path.toList.takeWhile (· ≠ '?') = path.toList :=
    List.takeWhile_eq_self_iff.mpr hquery
  have hrest : path.toList.dropWhile (· ≠ '?') = [] := List.dropWhile_eq_nil_iff.mpr hquery
  have hall : path.toList.all isPathChar = true := List.all_eq_true.mpr h
  simp only [pathAndQuery, takeWhile_fragment h, hpath, hrest, hall, List.tail?_nil,
    Option.getD_none, List.all_nil, and_self, if_true, Option.map_none]
  rw [if_neg (by simpa using hne), String.ofList_toList]

/-- Where there is no query, the path goes on to the fragment. -/
theorem path_of_pathAndQuery {cs : List Char} {path : String}
    (h : pathAndQuery cs = .ok (path, none)) (hne : path ≠ "/") :
    path.toList = cs.takeWhile (· ≠ '#') := by
  unfold pathAndQuery at h
  dsimp only at h
  split at h
  · obtain ⟨hpath, hquery⟩ := Prod.mk.inj (Except.ok.inj h)
    have hdrop : (cs.takeWhile (· ≠ '#')).dropWhile (· ≠ '?') = [] := by
      cases hd : (cs.takeWhile (· ≠ '#')).dropWhile (· ≠ '?') with
      | nil => rfl
      | cons c rest =>
        rw [hd] at hquery
        cases hquery
    have hwhole : (cs.takeWhile (· ≠ '#')).takeWhile (· ≠ '?') = cs.takeWhile (· ≠ '#') :=
      List.takeWhile_eq_self_iff.mpr (List.dropWhile_eq_nil_iff.mp hdrop)
    rw [hwhole] at hpath
    split at hpath
    · exact absurd hpath.symm hne
    · rw [← hpath, String.toList_ofList]
  · cases h

end BucketAdmin.Http.Uri
