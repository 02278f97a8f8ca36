import Mathlib.Data.List.Forall2
import BucketAdmin.Proofs.Api.Size
import BucketAdmin.Proofs.Documents
import BucketAdmin.Proofs.Json.Derivation
import BucketAdmin.Proofs.Json.Leading

/-!
# Listings and their buckets

The body of a listing is the list of the bodies of its buckets (`encodeBucketList_eq`), and it is
read as they are. Reading goes over the list twice. First the items are read as documents, left to
right, and the first that is none decides, whatever stands behind it (`read_listText`,
`read_listText_error`). Only then are the documents checked, again left to right. So where every
item is a document the list is read bucket by bucket, and the first bucket that is refused decides
(`decodeBucketList_listText`); but an item that is no document comes before a bucket that would be
refused, wherever that stands (`bucketList_lifts`).
-/

namespace BucketAdmin

namespace Json

open Value (commaSeparated)

/-- The text of a list, from the texts of its items. -/
def listText (texts : List Bytes) : Bytes := 0x5B :: [0x2C].intercalate texts ++ [0x5D]

theorem commaSeparated_eq_intercalate (parts : List Bytes) :
    commaSeparated parts = [0x2C].intercalate parts := by
  induction parts with
  | nil => rfl
  | cons part rest ih =>
    cases rest with
    | nil => simp [commaSeparated]
    | cons next rest => simp [commaSeparated, ih]

theorem listText_eq (texts : List Bytes) :
    listText texts = 0x5B :: commaSeparated texts ++ [0x5D] := by
  rw [listText, commaSeparated_eq_intercalate]

theorem render_ofList (vs : List Value) :
    (Value.ofList vs).render = listText (vs.map Value.render) := by
  rw [Value.ofList, Value.render, renderItems_eq_map, listText_eq]

theorem length_le_listText {text : Bytes} {texts : List Bytes} (h : text ∈ texts) :
    text.length ≤ (listText texts).length := by
  obtain ⟨before, after, rfl⟩ := List.append_of_mem h
  simp only [listText_eq, List.length_append, List.length_cons, length_commaSeparated,
    List.map_append, List.map_cons, List.sum_append, List.sum_cons]
  omega

theorem commaSeparated_append_cons {first : List Bytes} (hne : first ≠ []) (next : Bytes)
    (rest : List Bytes) : commaSeparated (first ++ next :: rest) =
      commaSeparated first ++ 0x2C :: commaSeparated (next :: rest) := by
  induction first with
  | nil => exact absurd rfl hne
  | cons part first ih =>
    cases first with
    | nil => rfl
    | cons part' first =>
      have ih := ih (List.cons_ne_nil _ _)
      simp only [List.cons_append, commaSeparated, List.append_assoc] at ih ⊢
      rw [ih]

/-! ## Lists of texts -/

theorem mapM_eq_ok_iff {ε α β : Type} {item : β → Except ε α} {xs : List β} {as : List α} :
    xs.mapM item = .ok as ↔ List.Forall₂ (fun x a => item x = .ok a) xs as := by
  induction xs generalizing as with
  | nil =>
    constructor
    · rintro ⟨⟩
      exact .nil
    · rintro ⟨⟩
      rfl
  | cons x xs ih =>
    rw [List.mapM_cons, bind_eq_ok, List.forall₂_cons_left_iff]
    refine exists_congr fun a => ?_
    simp only [bind_eq_ok, ih]
    constructor
    · rintro ⟨hx, as, hxs, heq⟩
      exact ⟨as, hx, hxs, (Except.ok.inj heq).symm⟩
    · rintro ⟨as, hx, hxs, rfl⟩
      exact ⟨hx, as, hxs, rfl⟩

variable {α : Type} {item : Reader α} {texts before after : List Bytes} {t : Bytes}

theorem exists_items (h : ∀ t ∈ texts, ∃ v, Spells v t) :
    ∃ ps : Items, ps.map (·.2) = texts ∧ ∀ p ∈ ps, Reads p.1 p.2 := by
  induction texts with
  | nil => exact ⟨[], rfl, nofun⟩
  | cons t texts ih =>
    obtain ⟨⟨v, hv⟩, htexts⟩ := List.forall_mem_cons.mp h
    obtain ⟨ps, hps, hreads⟩ := ih htexts
    exact ⟨(v, t) :: ps, by rw [List.map_cons, hps], List.forall_mem_cons.mpr ⟨hv.reads, hreads⟩⟩

theorem mapM_items {ps : Items} (h : ∀ p ∈ ps, Reads p.1 p.2) (item : Reader α) :
    (ps.map (·.1)).mapM item = (ps.map (·.2)).mapM (read item) := by
  induction ps with
  | nil => rfl
  | cons p ps ih =>
    obtain ⟨hp, hps⟩ := List.forall_mem_cons.mp h
    rw [List.map_cons, List.map_cons, List.mapM_cons, List.mapM_cons, ih hps, hp.read_eq]

/-- A list is read item by item. -/
theorem read_listText (h : ∀ t ∈ texts, ∃ v, Spells v t) (item : Reader α) :
    read (Value.list item) (listText texts) = texts.mapM (read item) := by
  obtain ⟨ps, rfl, hreads⟩ := exists_items h
  rw [listText_eq, (reads_array hreads).read_eq, Value.list, mapM_items hreads]
  cases (ps.map (·.2)).mapM (read item) <;> rfl

theorem read_error {reader : Reader α} {bs : Bytes} {fault : Fault}
    (h : reader (parse bs).1 = .error fault) : read reader bs = .error fault := by
  rw [read]
  exact bind_eq_error.mpr (.inl h)

/-- The first item that is refused decides, whatever stands behind it. -/
theorem read_listText_error {fault : Fault} (hbefore : ∀ u ∈ before, ∃ a, read item u = .ok a)
    (ht : ∃ v, Spells v t) (hfault : read item t = .error fault) (after : List Bytes) :
    read (Value.list item) (listText (before ++ t :: after)) = .error fault := by
  have hspells : ∀ u ∈ before ++ [t], ∃ v, Spells v u := by
    refine List.forall_mem_append.mpr ⟨fun u hu => ?_, List.forall_mem_singleton.mpr ht⟩
    obtain ⟨a, ha⟩ := hbefore u hu
    obtain ⟨v, hv, -⟩ := read_eq_ok_iff.mp ha
    exact ⟨v, hv⟩
  have hitems : (before ++ [t]).mapM (read item) = .error fault := mapM_eq_error hbefore hfault
  cases after with
  | nil => rw [read_listText hspells, hitems]
  | cons u after =>
    -- what follows need not be JSON, so only the items up to the fault are known
    obtain ⟨ps, hps, hreads⟩ := exists_items hspells
    have hne : ps ≠ [] := by
      rintro rfl
      simp at hps
    obtain ⟨later, closed, hparse⟩ :=
      parse_leading hne hreads (commaSeparated (u :: after) ++ [0x5D])
    have htext : listText (before ++ t :: u :: after) = 0x5B :: commaSeparated (ps.map (·.2)) ++
        0x2C :: (commaSeparated (u :: after) ++ [0x5D]) := by
      have hne : before ++ [t] ≠ [] := List.append_ne_nil_of_right_ne_nil _ (List.cons_ne_nil t [])
      have hsplit : before ++ t :: u :: after = (before ++ [t]) ++ u :: after := by simp
      rw [listText_eq, hps, hsplit, commaSeparated_append_cons hne]
      simp
    refine read_error ?_
    rw [htext, hparse, Value.list, List.mapM_append, mapM_items hreads, hps, hitems]
    rfl

end Json

namespace Api

open Bucket (Name Settings Document SettingsFault)
open Json (listText Spells ReadsBack readsBack_ofMembers reads_ofNat)

variable {texts before after : List Bytes} {t : Bytes} {d : Document} {fault : Fault}

theorem encodeBucketList_eq (buckets : List Settings) :
    encodeBucketList buckets = listText (buckets.map encodeSettings) := by
  rw [encodeBucketList, Json.render_ofList, List.map_map]
  rfl

/-- A fault of a document that was read: of its name, its quota or its number of replicas. -/
inductive OutOfBounds : Fault → Prop
  | name (f : Bucket.NameFault) : OutOfBounds (.malformedBody (.document (.name f)))
  | quota (quotaMb : UInt64) :
      OutOfBounds (.malformedBody (.document (.settings (.quotaTooSmall quotaMb))))
  | replicas (replicas : UInt8) :
      OutOfBounds (.malformedBody (.document (.settings (.tooManyReplicas replicas))))

theorem outOfBounds_of_settingsOf (h : settingsOf d = .error fault) : OutOfBounds fault := by
  obtain ⟨f, hf, rfl⟩ := mapError_eq_error.mp h
  rcases bind_eq_error.mp hf with hname | ⟨n, -, hsettings⟩
  · obtain ⟨f, -, rfl⟩ := mapError_eq_error.mp hname
    exact .name f
  · obtain ⟨f, hvalidate, rfl⟩ := mapError_eq_error.mp hsettings
    unfold Settings.validate at hvalidate
    split at hvalidate
    · cases hvalidate
      exact .quota _
    · split at hvalidate
      · cases hvalidate
        exact .replicas _
      · cases hvalidate

/-! ## Bodies -/

theorem readBody_of_le {α : Type} {body : Bytes} (reader : Json.Reader α)
    (h : body.length ≤ maxBodySize) :
    readBody reader body = (Json.read reader body).mapError fun f => .malformedBody (.json f) :=
  if_neg (Nat.not_lt.mpr h)

theorem decodeSettings_of_read (hsize : t.length ≤ maxBodySize)
    (h : Json.read Document.reader t = .ok d) : decodeSettings t = settingsOf d := by
  rw [decodeSettings, readBody_of_le _ hsize, h, mapError_ok, ok_bind]

theorem decodeSettings_of_read_error (hsize : t.length ≤ maxBodySize) {f : Json.Fault}
    (h : Json.read Document.reader t = .error f) :
    decodeSettings t = .error (.malformedBody (.json f)) := by
  rw [decodeSettings, readBody_of_le _ hsize, h, mapError_error, error_bind]

/-- A list of documents is read bucket by bucket. -/
theorem decodeBucketList_listText
    (h : ∀ t ∈ texts, ∃ d, Json.read Document.reader t = .ok d)
    (hsize : (listText texts).length ≤ maxBodySize) :
    decodeBucketList (listText texts) = texts.mapM decodeSettings := by
  have hspells : ∀ t ∈ texts, ∃ v, Spells v t := by
    intro t ht
    obtain ⟨d, hd⟩ := h t ht
    obtain ⟨v, hv, -⟩ := Json.read_eq_ok_iff.mp hd
    exact ⟨v, hv⟩
  have hle : ∀ t ∈ texts, t.length ≤ maxBodySize := fun t ht =>
    Nat.le_trans (Json.length_le_listText ht) hsize
  have hdocuments : ∀ t ∈ texts, ∃ d, readBody Document.reader t = .ok d := by
    intro t ht
    obtain ⟨d, hd⟩ := h t ht
    exact ⟨d, by rw [readBody_of_le _ (hle t ht), hd, mapError_ok]⟩
  have hbodies : readBody (Json.Value.list Document.reader) (listText texts) =
      texts.mapM (readBody Document.reader) := by
    rw [readBody_of_le _ hsize, Json.read_listText hspells, mapM_mapError]
    exact mapM_congr fun t ht => (readBody_of_le _ (hle t ht)).symm
  rw [decodeBucketList, hbodies]
  exact mapM_bind_mapM hdocuments

theorem decodeBucketList_listText_error {f : Json.Fault}
    (hbefore : ∀ u ∈ before, ∃ d, Json.read Document.reader u = .ok d)
    (ht : ∃ v, Spells v t) (hfault : Json.read Document.reader t = .error f)
    (hsize : (listText (before ++ t :: after)).length ≤ maxBodySize) :
    decodeBucketList (listText (before ++ t :: after)) = .error (.malformedBody (.json f)) := by
  rw [decodeBucketList, readBody_of_le _ hsize, Json.read_listText_error hbefore ht hfault,
    mapError_error, error_bind]

/-- **The body of a listing is the list of the bodies of its buckets, and is read as they are.**
Where every entry is a document, its buckets are read one by one and the first refusal decides. An
entry that is JSON but no document decides before any of them, whatever stands behind it. The fault
is told as `Json.Fault` has it, without the line and the column of the entry in the list. -/
theorem bucketList_lifts :
    (∀ buckets, encodeBucketList buckets = listText (buckets.map encodeSettings)) ∧
    (∀ texts, (∀ t ∈ texts, ∃ d, Json.read Document.reader t = .ok d) →
      (listText texts).length ≤ maxBodySize →
      (∀ t ∈ texts, (∃ s, decodeSettings t = .ok s) ∨
        ∃ fault, decodeSettings t = .error fault ∧ OutOfBounds fault) ∧
      (∀ buckets, decodeBucketList (listText texts) = .ok buckets ↔
        List.Forall₂ (fun t s => decodeSettings t = .ok s) texts buckets) ∧
      (∀ before t after fault, texts = before ++ t :: after →
        (∀ u ∈ before, ∃ s, decodeSettings u = .ok s) → decodeSettings t = .error fault →
        decodeBucketList (listText texts) = .error fault)) ∧
    (∀ before t after fault, (∀ u ∈ before, ∃ d, Json.read Document.reader u = .ok d) →
      (∃ v, Spells v t) → Json.read Document.reader t = .error fault →
      (listText (before ++ t :: after)).length ≤ maxBodySize →
      decodeSettings t = .error (.malformedBody (.json fault)) ∧
      decodeBucketList (listText (before ++ t :: after)) =
        .error (.malformedBody (.json fault))) := by
  refine ⟨encodeBucketList_eq, ?documents, ?other⟩
  case documents =>
    intro texts hdocuments hsize
    refine ⟨fun t ht => ?_, fun buckets => ?_, ?_⟩
    · obtain ⟨d, hd⟩ := hdocuments t ht
      rw [decodeSettings_of_read (Nat.le_trans (Json.length_le_listText ht) hsize) hd]
      cases h : settingsOf d with
      | ok s => exact .inl ⟨s, rfl⟩
      | error fault => exact .inr ⟨fault, rfl, outOfBounds_of_settingsOf h⟩
    · rw [decodeBucketList_listText hdocuments hsize, Json.mapM_eq_ok_iff]
    · intro before t after fault htexts hbefore hfault
      rw [decodeBucketList_listText hdocuments hsize, htexts]
      exact mapM_eq_error hbefore hfault
  case other =>
    intro before t after fault hbefore ht hfault hsize
    have hmem : t ∈ before ++ t :: after := List.mem_append_right before List.mem_cons_self
    have hle : t.length ≤ maxBodySize := Nat.le_trans (Json.length_le_listText hmem) hsize
    exact ⟨decodeSettings_of_read_error hle hfault,
      decodeBucketList_listText_error hbefore ht hfault hsize⟩

/-- A document with a name and a quota, and defaults otherwise. -/
def shortDocument (name : String) (quotaMb : UInt64) : Document where
  name := name
  kind := .default
  quotaMb := quotaMb
  replicas := 0
  indexReplicas := false
  auth := .none
  password := ""
  port := 0
  flushEnabled := false

def goodSettings : Settings := .blank ⟨"good", by decide, by decide, by decide⟩

def goodText : Bytes := (shortDocument "good" 100).json.render

def tightText : Bytes := (shortDocument "tight" 99).json.render

def namelessText : Bytes := (shortDocument "" 100).json.render

/-- The text of a map that is no document, as its name is a number. -/
def numberedText : Bytes := (Json.Value.ofMembers [("name", .ofNat 5)]).render

theorem read_shortDocument (name : String) (quotaMb : UInt64) :
    ∃ d, Json.read Document.reader (shortDocument name quotaMb).json.render = .ok d :=
  ⟨_, (Json.read_render (Document.readsBack_json _) _).trans (Document.reader_json _)⟩

/-- A quota that is too small comes before a name that is missing, but an entry that is no document
comes before both, whatever follows it. -/
theorem bucketList_lifts_tight_nameless :
    decodeBucketList (listText [goodText, goodText]) = .ok [goodSettings, goodSettings] ∧
    decodeBucketList (listText [goodText, tightText, namelessText]) =
      .error (.malformedBody (.document (.settings (.quotaTooSmall 99)))) ∧
    decodeBucketList (listText [goodText, namelessText, numberedText, [0x7D]]) =
      .error (.malformedBody (.json (.wrongShape (.number (.integer 5)) .string))) := by
  obtain ⟨-, hdocuments, hother⟩ := bucketList_lifts
  have hgood : decodeSettings goodText = .ok goodSettings := by decide +kernel
  have htight : decodeSettings tightText =
      .error (.malformedBody (.document (.settings (.quotaTooSmall 99)))) := by decide +kernel
  have hnumber : Json.read Document.reader numberedText =
      .error (.wrongShape (.number (.integer 5)) .string) := by decide +kernel
  have hnumbered : ReadsBack (.ofMembers [("name", .ofNat 5)]) :=
    readsBack_ofMembers (List.forall_mem_singleton.mpr (reads_ofNat 5))
  refine ⟨?_, ?_, ?_⟩
  · have hread : ∀ t ∈ [goodText, goodText], ∃ d, Json.read Document.reader t = .ok d := by
      simp only [List.forall_mem_cons]
      exact ⟨read_shortDocument "good" 100, read_shortDocument "good" 100, List.forall_mem_nil _⟩
    obtain ⟨-, hiff, -⟩ := hdocuments _ hread (by decide +kernel)
    exact (hiff _).mpr (.cons hgood (.cons hgood .nil))
  · have hread : ∀ t ∈ [goodText, tightText, namelessText],
        ∃ d, Json.read Document.reader t = .ok d := by
      simp only [List.forall_mem_cons]
      exact ⟨read_shortDocument "good" 100, read_shortDocument "tight" 99,
        read_shortDocument "" 100, List.forall_mem_nil _⟩
    obtain ⟨-, -, hfirst⟩ := hdocuments _ hread (by decide +kernel)
    exact hfirst [goodText] tightText [namelessText] _ rfl
      (List.forall_mem_singleton.mpr ⟨_, hgood⟩) htight
  · have hread : ∀ t ∈ [goodText, namelessText], ∃ d, Json.read Document.reader t = .ok d := by
      simp only [List.forall_mem_cons]
      exact ⟨read_shortDocument "good" 100, read_shortDocument "" 100, List.forall_mem_nil _⟩
    obtain ⟨-, hlist⟩ := hother [goodText, namelessText] numberedText [[0x7D]] _ hread
      ⟨_, hnumbered.spells⟩ hnumber (by decide +kernel)
    exact hlist

end Api

end BucketAdmin
