import Mathlib.Data.List.Forall2
import Mathlib.Data.List.Nodup
import BucketAdmin.Proofs.Json.Record

/-!
# Members in any order

What a record is read from, whatever the order of its members. A map is read just if its members
suit the record (`Record.Suits`): those that are fields of it are let through by their fields, no
field is there twice, and no required one is missing (`read_object_iff`). Members that are not
fields do not matter, and neither does the order, as the values are found by their keys.
-/

namespace BucketAdmin.Json.Record

/-! ## Values by key -/

section Lookup

variable {slots slots' : Slots} {key : String} {v : Value}

theorem lookup_cons (m : String × Value) :
    List.lookup key (m :: slots) = if m.1 = key then some m.2 else slots.lookup key := by
  rw [List.lookup_cons]
  by_cases h : m.1 = key
  · simp [h]
  · simp [h, beq_eq_false_iff_ne.mpr (Ne.symm h)]

theorem lookup_eq_none_iff : slots.lookup key = none ↔ key ∉ slots.map (·.1) := by
  induction slots with
  | nil => simp
  | cons m slots ih =>
    rw [lookup_cons, List.map_cons, List.mem_cons]
    by_cases h : m.1 = key
    · simp [h]
    · simp [h, ih, Ne.symm h]

theorem mem_of_lookup (h : slots.lookup key = some v) : (key, v) ∈ slots := by
  obtain ⟨before, after, rfl, -⟩ := List.lookup_eq_some_iff.mp h
  exact List.mem_append_right before List.mem_cons_self

theorem lookup_of_mem (hnodup : (slots.map (·.1)).Nodup) (h : (key, v) ∈ slots) :
    slots.lookup key = some v := by
  induction slots with
  | nil => cases h
  | cons m slots ih =>
    obtain ⟨hm, hnodup⟩ := List.nodup_cons.mp hnodup
    rw [lookup_cons]
    rcases List.mem_cons.mp h with rfl | h
    · exact if_pos rfl
    · rw [if_neg fun he => hm (List.mem_map.mpr ⟨_, h, Eq.symm he⟩), ih hnodup h]

/-- Where no key is there twice, the order does not matter. -/
theorem lookup_perm (h : slots.Perm slots') (hnodup : (slots.map (·.1)).Nodup) :
    slots.lookup key = slots'.lookup key := by
  induction h with
  | nil => rfl
  | cons m _ ih =>
    rw [lookup_cons, lookup_cons, ih (List.nodup_cons.mp hnodup).2]
  | swap m n slots =>
    have hne : n.1 ≠ m.1 := by
      intro he
      rw [List.map_cons, List.map_cons, he] at hnodup
      exact (List.nodup_cons.mp hnodup).1 List.mem_cons_self
    simp only [lookup_cons]
    by_cases hm : m.1 = key
    · rw [if_neg fun hn => hne (hn.trans hm.symm), if_pos hm]
      exact (if_pos hm).symm
    · rw [if_neg hm, if_neg hm]
  | trans h₁ h₂ ih₁ ih₂ =>
    exact (ih₁ hnodup).trans (ih₂ ((h₁.map _).nodup_iff.mp hnodup))

theorem lookup_filter {p : String → Bool} (hp : p key = true) :
    (slots.filter fun m => p m.1).lookup key = slots.lookup key := by
  induction slots with
  | nil => rfl
  | cons m slots ih =>
    rw [lookup_cons, List.filter_cons]
    split
    · rw [lookup_cons, ih]
    · next hm =>
      rw [ih, if_neg]
      rintro rfl
      exact hm hp

end Lookup

/-! ## Maps -/

/-- The member gives a field of the record a value that the field lets through. -/
def Takes (r : Record) (m : String × Value) : Prop :=
  ∃ f, r.field? m.1 = some f ∧ f.check m.2 = .ok ()

/-- The members of a map, each with its key read. -/
def Named (ms : List (Bytes × Value)) (named : Slots) : Prop :=
  List.Forall₂ (fun m n => unquote? m.1 = some n.1 ∧ m.2 = n.2) ms named

variable {r : Record} {ms : List (Bytes × Value)} {named seen slots : Slots} {closed : Bool}

def isField (r : Record) (key : String) : Bool := (r.field? key).isSome

/-- The members that are fields of the record. -/
def known (r : Record) (named : Slots) : Slots := named.filter fun m => r.isField m.1

theorem known_cons_of_field {m : String × Value} (h : r.isField m.1 = true) :
    r.known (m :: named) = m :: r.known named :=
  List.filter_cons_of_pos h

theorem known_cons_of_other {m : String × Value} (h : r.isField m.1 = false) :
    r.known (m :: named) = r.known named :=
  List.filter_cons_of_neg (by simp [h])

/-- The members may follow others that were seen. -/
structure Follows (r : Record) (seen named : Slots) : Prop where
  takes : ∀ m ∈ r.known named, r.Takes m
  once : ((r.known named).map (·.1)).Nodup
  new : ∀ m ∈ r.known named, seen.lookup m.1 = none

theorem follows_nil : r.Follows seen [] := ⟨nofun, .nil, nofun⟩

theorem follows_cons_of_other {m : String × Value} (h : r.isField m.1 = false) :
    r.Follows seen (m :: named) ↔ r.Follows seen named := by
  constructor
  · rintro ⟨htakes, honce, hnew⟩
    rw [known_cons_of_other h] at htakes honce hnew
    exact ⟨htakes, honce, hnew⟩
  · rintro ⟨htakes, honce, hnew⟩
    rw [← known_cons_of_other h] at htakes honce hnew
    exact ⟨htakes, honce, hnew⟩

theorem follows_cons_of_field {m : String × Value} (h : r.isField m.1 = true) :
    r.Follows seen (m :: named) ↔
      seen.lookup m.1 = none ∧ r.Takes m ∧ r.Follows (m :: seen) named := by
  constructor
  · rintro ⟨htakes, honce, hnew⟩
    rw [known_cons_of_field h] at htakes honce hnew
    obtain ⟨htake, htakes⟩ := List.forall_mem_cons.mp htakes
    obtain ⟨hm, honce⟩ := List.nodup_cons.mp honce
    obtain ⟨hlookup, hnew⟩ := List.forall_mem_cons.mp hnew
    refine ⟨hlookup, htake, htakes, honce, fun n hn => ?_⟩
    rw [lookup_cons, if_neg fun he => hm (List.mem_map.mpr ⟨n, hn, Eq.symm he⟩)]
    exact hnew n hn
  · rintro ⟨hlookup, htake, htakes, honce, hnew⟩
    have hm : ∀ n ∈ r.known named, m.1 ≠ n.1 ∧ seen.lookup n.1 = none := by
      intro n hn
      have hnone := hnew n hn
      rw [lookup_cons] at hnone
      split at hnone
      · cases hnone
      · next hne => exact ⟨hne, hnone⟩
    refine ⟨?_, ?_, ?_⟩ <;> rw [known_cons_of_field h]
    · exact List.forall_mem_cons.mpr ⟨htake, htakes⟩
    · refine List.nodup_cons.mpr ⟨fun hmem => ?_, honce⟩
      obtain ⟨n, hn, he⟩ := List.mem_map.mp hmem
      exact (hm n hn).1 he.symm
    · exact List.forall_mem_cons.mpr ⟨hlookup, fun n hn => (hm n hn).2⟩

/-- What is found by reading the members of a map, latest first. -/
theorem readMembers_eq_ok_iff (h : Named ms named) :
    r.readMembers seen closed ms = .ok slots ↔
      closed = true ∧ r.Follows seen named ∧ r.missing? ((r.known named).reverse ++ seen) = none ∧
        slots = (r.known named).reverse ++ seen := by
  induction h generalizing seen with
  | nil =>
    have hknown : (r.known []).reverse ++ seen = seen := rfl
    rw [readMembers, hknown]
    cases closed with
    | false => simp
    | true =>
      cases hmissing : r.missing? seen with
      | none => simp [follows_nil, eq_comm]
      | some f => simp
  | @cons m n ms named hm _ ih =>
    obtain ⟨hkey, hvalue⟩ := hm
    rw [readMembers, hkey]
    dsimp only
    cases hfield : r.field? n.1 with
    | none =>
      have hother : r.isField n.1 = false := by rw [isField, hfield]; rfl
      rw [follows_cons_of_other hother, known_cons_of_other hother]
      exact ih
    | some f =>
      have hknown : r.isField n.1 = true := by rw [isField, hfield]; rfl
      rw [follows_cons_of_field hknown, known_cons_of_field hknown, List.reverse_cons,
        List.append_assoc, List.singleton_append]
      dsimp only
      cases hlookup : seen.lookup n.1 with
      | some v => simp
      | none =>
        rw [hvalue]
        cases hcheck : f.check n.2 with
        | error fault =>
          have htakes : ¬r.Takes n := by
            rintro ⟨f', hfield', hcheck'⟩
            cases hfield.symm.trans hfield'
            cases hcheck.symm.trans hcheck'
          simp [htakes]
        | ok u =>
          have htakes : r.Takes n := ⟨f, hfield, hcheck⟩
          have hrest := @ih (n :: seen)
          simpa [htakes] using hrest

theorem exists_named (h : r.readMembers seen closed ms = .ok slots) : ∃ named, Named ms named := by
  induction ms generalizing seen with
  | nil => exact ⟨[], .nil⟩
  | cons m ms ih =>
    rw [readMembers] at h
    cases hkey : unquote? m.1 with
    | none =>
      rw [hkey] at h
      cases h
    | some key =>
      rw [hkey] at h
      dsimp only at h
      have hrest : ∃ seen, r.readMembers seen closed ms = .ok slots := by
        split at h
        · exact ⟨_, h⟩
        · split at h
          · cases h
          · split at h
            · cases h
            · exact ⟨_, h⟩
      obtain ⟨seen, hrest⟩ := hrest
      obtain ⟨named, hnamed⟩ := ih hrest
      exact ⟨(key, m.2) :: named, .cons ⟨hkey, rfl⟩ hnamed⟩

/-- The members of a map may be read as the record. -/
structure Suits (r : Record) (named : Slots) : Prop where
  takes : ∀ m ∈ r.known named, r.Takes m
  once : ((r.known named).map (·.1)).Nodup
  complete : r.missing? named = none

theorem missing?_eq_none_congr {slots' : Slots}
    (h : ∀ key, r.isField key = true → slots.lookup key = slots'.lookup key) :
    r.missing? slots = none ↔ r.missing? slots' = none := by
  simp only [missing?, List.find?_eq_none]
  refine forall₂_congr fun f hf => ?_
  have hfield : r.isField f.key = true := by
    rw [isField, field?, List.find?_isSome]
    exact ⟨f, hf, beq_self_eq_true _⟩
  rw [h f.key hfield]

/-- A field is found among the members that were read as it is among all. -/
theorem lookup_reverse_known {key : String} (honce : ((r.known named).map (·.1)).Nodup)
    (h : r.isField key = true) : (r.known named).reverse.lookup key = named.lookup key := by
  have hknown : (r.known named).lookup key = named.lookup key := lookup_filter h
  rw [← hknown]
  exact (lookup_perm (List.reverse_perm _).symm honce).symm

/-- **A map is read as a record just if its members suit it.** -/
theorem read_object_iff (h : Named ms named) :
    r.read (.object ms true) = .ok slots ↔ r.Suits named ∧ slots = (r.known named).reverse := by
  change r.readMembers [] true ms = _ ↔ _
  rw [readMembers_eq_ok_iff h, List.append_nil]
  constructor
  · rintro ⟨-, ⟨htakes, honce, -⟩, hmissing, rfl⟩
    rw [missing?_eq_none_congr fun key hkey => lookup_reverse_known honce hkey] at hmissing
    exact ⟨⟨htakes, honce, hmissing⟩, rfl⟩
  · rintro ⟨⟨htakes, honce, hmissing⟩, rfl⟩
    rw [← missing?_eq_none_congr fun key hkey => lookup_reverse_known honce hkey] at hmissing
    exact ⟨rfl, ⟨htakes, honce, fun _ _ => rfl⟩, hmissing, rfl⟩

theorem isField_of_takes {m : String × Value} (h : r.Takes m) : r.isField m.1 = true := by
  obtain ⟨f, hf, -⟩ := h
  rw [isField, hf]
  rfl

/-- **A written record is read as its members**, the latest first. -/
theorem read_ofMembers {ms : Slots} (htakes : ∀ m ∈ ms, r.Takes m)
    (hnodup : (ms.map (·.1)).Nodup) (hall : r.missing? ms.reverse = none) :
    r.read (.ofMembers ms) = .ok ms.reverse := by
  have hnamed : Named (ms.map fun m => (quote m.1, m.2)) ms := by
    refine List.forall₂_map_left_iff.mpr (List.forall₂_same.mpr fun m _ => ?_)
    exact ⟨unquote?_quote m.1, rfl⟩
  have hknown : r.known ms = ms :=
    List.filter_eq_self.mpr fun m hm => isField_of_takes (htakes m hm)
  rw [missing?_eq_none_congr fun _ _ =>
    (lookup_perm (List.reverse_perm _).symm hnodup).symm] at hall
  refine (read_object_iff hnamed).mpr ⟨⟨?_, ?_, hall⟩, ?_⟩ <;> rw [hknown]
  · exact htakes
  · exact hnodup

/-! ## Lists -/

/-- The items of a list are read as the first fields, if the fields left over have defaults. -/
theorem readItems_zip {position : Nat} {fields : List Field} {items : List Value}
    (h : List.Forall₂ (fun f v => f.check v = .ok ()) (fields.take items.length) items)
    (hdefaults : ∀ f ∈ fields.drop items.length, f.mandatory = false) :
    r.readItems true position fields items =
      .ok (((fields.take items.length).map (·.key)).zip items) := by
  induction fields generalizing position items with
  | nil =>
    rw [List.take_nil] at h
    cases h
    rfl
  | cons f fields ih =>
    cases items with
    | nil =>
      obtain ⟨hf, hdefaults⟩ := List.forall_mem_cons.mp hdefaults
      have hrest := @ih (position + 1) [] .nil hdefaults
      simpa [readItems, hf] using hrest
    | cons v items =>
      obtain ⟨hcheck, hrest⟩ := List.forall₂_cons.mp h
      have hrest := @ih (position + 1) items hrest hdefaults
      simp only [readItems, hcheck, ok_bind, hrest]
      rfl

/-! ## What is found by a key -/

namespace Slots

variable {α : Type} {reader : Reader α} {slots slots' : Slots} {key : String} {default a : α}
  {v : Value}

theorem get_congr (hreader : reader.Blind)
    (h : Option.Rel Value.Alike (slots.lookup key) (slots'.lookup key)) :
    slots.get key reader = slots'.get key reader := by
  unfold get
  generalize slots.lookup key = found at h
  generalize slots'.lookup key = found' at h
  cases h with
  | some h => exact hreader h
  | none => rfl

theorem getD_congr (hreader : reader.Blind)
    (h : Option.Rel Value.Alike (slots.lookup key) (slots'.lookup key)) :
    slots.getD key reader default = slots'.getD key reader default := by
  unfold getD
  generalize slots.lookup key = found at h
  generalize slots'.lookup key = found' at h
  cases h with
  | some h => exact hreader h
  | none => rfl

theorem get_of_mem (h : ∀ v, (key, v) ∈ slots → reader v = .ok a)
    (hmem : ¬key ∉ slots.map (·.1)) : slots.get key reader = .ok a := by
  unfold get
  split
  · next v hv => exact h v (mem_of_lookup hv)
  · next hnone => exact absurd (lookup_eq_none_iff.mp hnone) hmem

theorem getD_of_mem (h : ∀ v, (key, v) ∈ slots → reader v = .ok a)
    (hdefault : key ∉ slots.map (·.1) → a = default) : slots.getD key reader default = .ok a := by
  unfold getD
  split
  · next v hv => exact h v (mem_of_lookup hv)
  · next hnone => rw [hdefault (lookup_eq_none_iff.mp hnone)]

theorem exists_lookup (h : slots.get key reader = .ok a) : ∃ v, slots.lookup key = some v := by
  unfold get at h
  split at h
  · next v hlookup => exact ⟨v, hlookup⟩
  · cases h

theorem check_of_get (hlookup : slots.lookup key = some v) (h : slots.get key reader = .ok a) :
    (Field.required key reader).check v = .ok () := by
  rw [get, hlookup] at h
  exact Field.check_required h

theorem check_of_getD (hlookup : slots.lookup key = some v)
    (h : slots.getD key reader default = .ok a) : (Field.optional key reader).check v = .ok () := by
  rw [getD, hlookup] at h
  exact Field.check_optional h

end Slots

end BucketAdmin.Json.Record
