import Mathlib.Data.List.DropRight
import BucketAdmin.Api.Endpoint

/-!
# Routes are read back

A path loses its last slashes and nothing else (`trimSlashes_eq_iff`), so what does not end in a
slash stays as it is. The path of a route is such a text, and the route is read back from its verb
and its path (`Endpoint.parse_path`): no name of a bucket holds a slash, so its path is none of
the two without a name. Whatever else is asked for has no route (`Endpoint.parse_eq_error`). So a
verb and a path have a route exactly if they are those of the route, with any number of slashes at
the end of the path (`Endpoint.parse_exact`).
-/

namespace BucketAdmin.Api

open Bucket (Name isNameChar)

theorem Method.parse_text (m : Method) : Method.parse m.text = .ok m := by
  cases m <;> rfl

theorem Method.parse_of_ne {verb : String} (h : ∀ m : Method, verb ≠ m.text) :
    Method.parse verb = .error (.unsupportedMethod verb) := by
  have hget : ¬verb = "GET" := h .get
  have hpost : ¬verb = "POST" := h .post
  have hdelete : ¬verb = "DELETE" := h .delete
  simp only [Method.parse, if_neg hget, if_neg hpost, if_neg hdelete]

theorem toList_trimSlashes (path : String) :
    (trimSlashes path).toList = path.toList.rdropWhile (· == '/') :=
  String.toList_ofList

theorem trimSlashes_of_append {lead last : String} (hlast : last.toList ≠ [])
    (h : ∀ c ∈ last.toList, c ≠ '/') : trimSlashes (lead ++ last) = lead ++ last := by
  rw [← String.toList_inj, toList_trimSlashes, String.toList_append, List.rdropWhile_eq_self_iff]
  intro hne
  rw [List.getLast_append_of_ne_nil hne hlast, beq_iff_eq]
  exact h _ (List.getLast_mem hlast)

/-! ## Slashes at the end -/

/-- So many slashes. -/
def slashes (k : Nat) : String := String.ofList (List.replicate k '/')

/-- The path ends in a slash. -/
def EndsInSlash (path : String) : Prop := path.toList.getLast? = some '/'

theorem exists_slashes (path : String) : ∃ k, path = trimSlashes path ++ slashes k := by
  have hall : ∀ c ∈ path.toList.rtakeWhile (· == '/'), c = '/' := by
    intro c hc
    have hslash := List.mem_rtakeWhile_imp (p := (· == '/')) hc
    exact beq_iff_eq.mp hslash
  refine ⟨(path.toList.rtakeWhile (· == '/')).length, ?_⟩
  rw [← String.toList_inj, String.toList_append, toList_trimSlashes, slashes, String.toList_ofList,
    ← List.eq_replicate_of_mem hall, List.rdropWhile_append_rtakeWhile]

theorem not_endsInSlash_trimSlashes (path : String) : ¬EndsInSlash (trimSlashes path) := by
  rw [EndsInSlash, toList_trimSlashes]
  intro hlast
  by_cases hne : path.toList.rdropWhile (· == '/') = []
  · rw [hne] at hlast
    cases hlast
  · rw [List.getLast?_eq_some_getLast hne] at hlast
    refine List.rdropWhile_last_not (· == '/') path.toList hne ?_
    rw [Option.some.inj hlast]
    rfl

theorem trimSlashes_append_slashes {path : String} (h : ¬EndsInSlash path) (k : Nat) :
    trimSlashes (path ++ slashes k) = path := by
  rw [← String.toList_inj, toList_trimSlashes, String.toList_append, slashes,
    String.toList_ofList]
  induction k with
  | zero =>
    rw [List.replicate_zero, List.append_nil, List.rdropWhile_eq_self_iff]
    intro hne hslash
    refine h ?_
    rw [EndsInSlash, List.getLast?_eq_some_getLast hne, beq_iff_eq.mp hslash]
  | succ k ih =>
    rw [List.replicate_succ', ← List.append_assoc, List.rdropWhile_concat_pos _ _ _ rfl, ih]

/-- What stays of a path is the part before the slashes at its end. -/
theorem trimSlashes_eq_iff {path bare : String} :
    trimSlashes path = bare ↔ ¬EndsInSlash bare ∧ ∃ k, path = bare ++ slashes k := by
  constructor
  · rintro rfl
    exact ⟨not_endsInSlash_trimSlashes path, exists_slashes path⟩
  · rintro ⟨hbare, k, rfl⟩
    exact trimSlashes_append_slashes hbare k

/-! ## Names in paths -/

theorem ne_slash_of_isNameChar {c : Char} (h : isNameChar c = true) : c ≠ '/' := by
  rintro rfl
  cases h

theorem ne_slash_of_mem_name (n : Name) : ∀ c ∈ n.text.toList, c ≠ '/' := fun c hc =>
  ne_slash_of_isNameChar (List.all_eq_true.mp n.valid.chars c hc)

theorem toList_name_ne_nil (n : Name) : n.text.toList ≠ [] := by
  intro h
  exact n.valid.nonempty (String.toList_inj.mp h)

/-- What is below the collection is a name, if it is one. -/
theorem nameIn?_path (n : Name) : nameIn? (bucketsPath ++ "/" ++ n.text) = some n := by
  have hsplit : (bucketsPath.toList ++ ['/']).isPrefixOf?
      (bucketsPath ++ "/" ++ n.text).toList = some n.text.toList := by
    rw [List.isPrefixOf?_eq_some_iff_append_eq, String.toList_append, String.toList_append]
    rfl
  simp only [nameIn?, hsplit, String.ofList_toList, Name.ofString_text]
  rfl

/-- A name is found only in the path of its bucket. -/
theorem eq_of_nameIn? {path : String} {n : Name} (h : nameIn? path = some n) :
    path = bucketsPath ++ "/" ++ n.text := by
  unfold nameIn? at h
  split at h
  · next rest hrest =>
    have hname : Name.ofString (String.ofList rest) = .ok n := by
      cases hof : Name.ofString (String.ofList rest) with
      | ok m =>
        rw [hof] at h
        exact congrArg Except.ok (Option.some.inj h)
      | error fault =>
        rw [hof] at h
        cases h
    rw [← String.toList_inj, Name.text_of_ofString hname, String.toList_append,
      String.toList_append, String.toList_ofList (l := rest)]
    exact (List.isPrefixOf?_eq_some_iff_append_eq.mp hrest).symm
  · cases h

/-! ## Routes -/

namespace Endpoint

/-- The path of a bucket is longer than that of the collection. -/
theorem bucketPath_ne (n : Name) {path : String} (h : path.length ≤ bucketsPath.length) :
    bucketsPath ++ "/" ++ n.text ≠ path := by
  rintro rfl
  rw [String.length_append, String.length_append] at h
  have hone : "/".length = 1 := rfl
  omega

theorem parse_bucketPath (m : Method) (n : Name) :
    parse m (bucketsPath ++ "/" ++ n.text) =
      match m with
      | .get => .ok (.getBucket n)
      | .post => .ok (.updateBucket n)
      | .delete => .ok (.deleteBucket n) := by
  have htrim : trimSlashes (bucketsPath ++ "/" ++ n.text) = bucketsPath ++ "/" ++ n.text :=
    trimSlashes_of_append (toList_name_ne_nil n) (ne_slash_of_mem_name n)
  simp only [parse, htrim, bucketPath_ne n (by decide : clusterPath.length ≤ bucketsPath.length),
    bucketPath_ne n (Nat.le_refl bucketsPath.length), if_false, nameIn?_path]
  cases m <;> rfl

/-- **A route is read back from its verb and its path.** -/
theorem parse_path (e : Endpoint) : parse e.method e.path = .ok e := by
  cases e with
  | clusterInfo => rfl
  | listBuckets => rfl
  | createBucket => rfl
  | getBucket n => exact parse_bucketPath .get n
  | updateBucket n => exact parse_bucketPath .post n
  | deleteBucket n => exact parse_bucketPath .delete n

/-- A path is refused only for want of a route. -/
theorem parse_eq_error {m : Method} {path : String} {f : Fault} (h : parse m path = .error f) :
    f = .noRoute m (trimSlashes path) := by
  rw [parse.eq_def] at h
  by_cases hcluster : trimSlashes path = clusterPath
  · rw [if_pos hcluster] at h
    cases m <;> cases h <;> rfl
  · rw [if_neg hcluster] at h
    by_cases hbuckets : trimSlashes path = bucketsPath
    · rw [if_pos hbuckets] at h
      cases m <;> cases h
      rfl
    · rw [if_neg hbuckets] at h
      cases hname : nameIn? (trimSlashes path) with
      | none =>
        rw [hname] at h
        cases h
        rfl
      | some n =>
        rw [hname] at h
        cases m <;> cases h

/-- A path leads to a route only if it is that of the route, its last slashes apart. -/
theorem of_parse_eq_ok {m : Method} {path : String} {e : Endpoint} (h : parse m path = .ok e) :
    m = e.method ∧ trimSlashes path = e.path := by
  rw [parse.eq_def] at h
  by_cases hcluster : trimSlashes path = clusterPath
  · rw [if_pos hcluster] at h
    cases m <;> cases h
    exact ⟨rfl, hcluster⟩
  · rw [if_neg hcluster] at h
    by_cases hbuckets : trimSlashes path = bucketsPath
    · rw [if_pos hbuckets] at h
      cases m <;> cases h
      · exact ⟨rfl, hbuckets⟩
      · exact ⟨rfl, hbuckets⟩
    · rw [if_neg hbuckets] at h
      cases hname : nameIn? (trimSlashes path) with
      | none =>
        rw [hname] at h
        cases h
      | some n =>
        rw [hname] at h
        have hpath := eq_of_nameIn? hname
        cases m <;> cases h <;> exact ⟨rfl, hpath⟩

theorem not_endsInSlash_path (e : Endpoint) : ¬EndsInSlash e.path := by
  obtain ⟨-, htrim⟩ := of_parse_eq_ok e.parse_path
  rw [← htrim]
  exact not_endsInSlash_trimSlashes e.path

/-- Slashes at the end of a path do not matter. -/
theorem parse_congr {path path' : String} (h : trimSlashes path = trimSlashes path')
    (m : Method) : parse m path = parse m path' := by
  rw [parse.eq_def, parse.eq_def, h]

theorem parse_eq_ok_iff {m : Method} {path : String} {e : Endpoint} :
    parse m path = .ok e ↔ m = e.method ∧ ∃ k, path = e.path ++ slashes k := by
  constructor
  · intro h
    obtain ⟨hverb, htrim⟩ := of_parse_eq_ok h
    exact ⟨hverb, (trimSlashes_eq_iff.mp htrim).2⟩
  · rintro ⟨rfl, k, rfl⟩
    have htrim : trimSlashes (e.path ++ slashes k) = trimSlashes e.path :=
      (trimSlashes_append_slashes e.not_endsInSlash_path k).trans
        (of_parse_eq_ok e.parse_path).2.symm
    rw [parse_congr htrim, parse_path]

/-- **The routes are those that are printed, up to slashes at the end of the path.** Every other
verb and path is refused, with the verb and what is before these slashes, and no two routes are
printed alike. -/
theorem parse_exact :
    (∀ m path (e : Endpoint),
      parse m path = .ok e ↔ m = e.method ∧ ∃ k, path = e.path ++ slashes k) ∧
    (∀ m path, (∀ (e : Endpoint) k, m = e.method → path ≠ e.path ++ slashes k) →
      ∃ bare k, path = bare ++ slashes k ∧ ¬EndsInSlash bare ∧
        parse m path = .error (.noRoute m bare) ∧
        (Fault.noRoute m bare).message = "No route for " ++ m.text ++ " " ++ bare) ∧
    (∀ e : Endpoint, parse e.method e.path = .ok e) ∧
    ∀ e e' : Endpoint, e.method = e'.method → e.path = e'.path → e = e' := by
  refine ⟨fun m path e => parse_eq_ok_iff, ?_, parse_path, ?_⟩
  · intro m path hnone
    obtain ⟨hbare, k, hpath⟩ := trimSlashes_eq_iff.mp (rfl : trimSlashes path = trimSlashes path)
    refine ⟨trimSlashes path, k, hpath, hbare, ?_, rfl⟩
    cases hparse : parse m path with
    | ok e =>
      obtain ⟨hverb, k, hpath⟩ := parse_eq_ok_iff.mp hparse
      exact absurd hpath (hnone e k hverb)
    | error fault => rw [parse_eq_error hparse]
  · intro e e' hverb hpath
    have hparse := e.parse_path
    rw [hverb, hpath, parse_path] at hparse
    exact (Except.ok.inj hparse).symm

/-- Below a bucket there is nothing, however many slashes follow. -/
theorem parse_exact_belowBucket :
    (∀ (e : Endpoint) k, Method.get = e.method →
      "/pools/default/buckets/a/b//" ≠ e.path ++ slashes k) ∧
    ∃ bare k, "/pools/default/buckets/a/b//" = bare ++ slashes k ∧ ¬EndsInSlash bare ∧
      parse .get "/pools/default/buckets/a/b//" = .error (.noRoute .get bare) := by
  obtain ⟨hroute, hnone, -, -⟩ := parse_exact
  have hother : ∀ (e : Endpoint) k, Method.get = e.method →
      "/pools/default/buckets/a/b//" ≠ e.path ++ slashes k := by
    intro e k hverb hpath
    have hparse := (hroute .get _ e).mpr ⟨hverb, k, hpath⟩
    have hrefused : parse .get "/pools/default/buckets/a/b//" =
        .error (.noRoute .get "/pools/default/buckets/a/b") := rfl
    rw [hrefused] at hparse
    cases hparse
  obtain ⟨bare, k, hpath, hbare, hparse, -⟩ := hnone .get _ hother
  exact ⟨hother, bare, k, hpath, hbare, hparse⟩

/-- Only the paths of the cluster and of the collection are as short as these. -/
theorem path_ne (e : Endpoint) {path : String} (hlength : path.length ≤ bucketsPath.length)
    (hcluster : clusterPath ≠ path) (hbuckets : bucketsPath ≠ path) : e.path ≠ path := by
  cases e with
  | clusterInfo => exact hcluster
  | listBuckets | createBucket => exact hbuckets
  | getBucket n | updateBucket n | deleteBucket n => exact bucketPath_ne n hlength

end Endpoint

end BucketAdmin.Api
