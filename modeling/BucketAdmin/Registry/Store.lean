import BucketAdmin.Text.Utf8

/-!
# Stored records

A store maps keys to records, both byte sequences, and lists them in the byte order of their keys.
The order is part of the type, so a store is known by what it answers for each key (`Store.ext`).

A store does not fail: what is put into it is there, what is dropped is gone, and all of it can be
read. Errors of a disk, and writes that are made but do not persist, are outside of this.
-/

namespace BucketAdmin

namespace Bytes

protected theorem lt_trans {a b c : Bytes} (h₁ : a < b) (h₂ : b < c) : a < c :=
  List.lt_trans h₁ h₂

protected theorem lt_irrefl (a : Bytes) : ¬a < a := List.lt_irrefl a

protected theorem eq_of_not_lt {a b : Bytes} (h₁ : ¬a < b) (h₂ : ¬b < a) : a = b :=
  List.le_antisymm (List.not_lt.mp h₂) (List.not_lt.mp h₁)

end Bytes

namespace Registry

/-- A key and its record. -/
abbrev Entry := Bytes × Bytes

/-- Put a record into a list in key order, in place of any with its key. -/
def insertEntry (key record : Bytes) : List Entry → List Entry
  | [] => [(key, record)]
  | e :: rest =>
    if key < e.1 then (key, record) :: e :: rest
    else if e.1 < key then e :: insertEntry key record rest
    else (key, record) :: rest

theorem mem_insertEntry {key record : Bytes} {entries : List Entry} {e : Entry}
    (h : e ∈ insertEntry key record entries) : e = (key, record) ∨ e ∈ entries := by
  induction entries with
  | nil => simpa [insertEntry] using h
  | cons e' rest ih =>
    unfold insertEntry at h
    split at h
    · simpa using h
    · split at h
      · rcases List.mem_cons.mp h with rfl | h
        · simp
        · rcases ih h with h | h <;> simp [h]
      · rcases List.mem_cons.mp h with rfl | h <;> simp [*]

/-- Keys strictly ascend. -/
abbrev Ascending (entries : List Entry) : Prop := entries.Pairwise fun a b => a.1 < b.1

theorem ascending_insertEntry {key record : Bytes} {entries : List Entry}
    (h : Ascending entries) : Ascending (insertEntry key record entries) := by
  induction entries with
  | nil => simp [insertEntry, Ascending]
  | cons e rest ih =>
    obtain ⟨hhead, htail⟩ := List.pairwise_cons.mp h
    unfold insertEntry
    split
    · next hlt =>
      refine List.pairwise_cons.mpr ⟨fun x hx => ?_, h⟩
      rcases List.mem_cons.mp hx with rfl | hx
      · exact hlt
      · exact Bytes.lt_trans hlt (hhead x hx)
    · next hge =>
      split
      · next hgt =>
        refine List.pairwise_cons.mpr ⟨fun x hx => ?_, ih htail⟩
        rcases mem_insertEntry hx with rfl | hx
        · exact hgt
        · exact hhead x hx
      · next hle =>
        have hkey : e.1 = key := Bytes.eq_of_not_lt hle hge
        exact List.pairwise_cons.mpr ⟨fun x hx => hkey ▸ hhead x hx, htail⟩

/-- The record of the first entry with a key. -/
def lookup (key : Bytes) : List Entry → Option Bytes
  | [] => none
  | e :: rest => if key = e.1 then some e.2 else lookup key rest

/-- Records by key, in key order. -/
structure Store where
  entries : List Entry
  ascending : Ascending entries
  deriving DecidableEq

namespace Store

/-- No records. -/
def empty : Store := ⟨[], .nil⟩

/-- The record under a key. -/
def get? (st : Store) (key : Bytes) : Option Bytes := lookup key st.entries

/-- Put a record under a key. -/
def insert (st : Store) (key record : Bytes) : Store :=
  ⟨insertEntry key record st.entries, ascending_insertEntry st.ascending⟩

/-- Drop the record under a key. -/
def erase (st : Store) (key : Bytes) : Store :=
  ⟨st.entries.filter (·.1 ≠ key), st.ascending.filter _⟩

/-- The records whose keys start with `lead`, in key order. -/
def withLead (st : Store) (lead : Bytes) : List Bytes :=
  (st.entries.filter (lead.isPrefixOf ·.1)).map (·.2)

end Store

theorem lookup_insertEntry (key record k : Bytes) (entries : List Entry) :
    lookup k (insertEntry key record entries) =
      if k = key then some record else lookup k entries := by
  induction entries with
  | nil => rfl
  | cons e rest ih =>
    unfold insertEntry
    split
    · rfl
    · next hge =>
      split
      · next hgt =>
        by_cases h : k = key
        · have hne : k ≠ e.1 := fun he => Bytes.lt_irrefl _ (he ▸ h ▸ hgt)
          rw [lookup, if_neg hne, ih, if_pos h, if_pos h]
        · simp [lookup, ih, h]
      · next hle =>
        have hkey : e.1 = key := Bytes.eq_of_not_lt hle hge
        by_cases h : k = key <;> simp [lookup, h, hkey]

theorem lookup_filter_ne (key k : Bytes) (entries : List Entry) :
    lookup k (entries.filter (·.1 ≠ key)) = if k = key then none else lookup k entries := by
  induction entries with
  | nil => simp [lookup]
  | cons e rest ih =>
    by_cases he : e.1 = key
    · by_cases hk : k = key
      · subst hk
        simpa [he] using ih
      · simpa [he, hk, lookup] using ih
    · by_cases hk : k = key
      · subst hk
        simpa [he, lookup, Ne.symm he] using ih
      · simp_all [lookup]

theorem lookup_eq_none {key : Bytes} {entries : List Entry} (h : ∀ e ∈ entries, key < e.1) :
    lookup key entries = none := by
  induction entries with
  | nil => rfl
  | cons e rest ih =>
    have hne : key ≠ e.1 := fun he => Bytes.lt_irrefl _ (he ▸ h e List.mem_cons_self)
    rw [lookup, if_neg hne]
    exact ih fun x hx => h x (List.mem_cons_of_mem _ hx)

/-- A key below the first one has no record. -/
theorem lookup_below {key : Bytes} {e : Entry} {rest : List Entry}
    (hasc : Ascending (e :: rest)) (h : key < e.1) : lookup key (e :: rest) = none := by
  refine lookup_eq_none fun x hx => ?_
  rcases List.mem_cons.mp hx with rfl | hx
  · exact h
  · exact Bytes.lt_trans h ((List.pairwise_cons.mp hasc).1 x hx)

/-- Ascending lists that answer alike are equal. -/
theorem eq_of_lookup_eq {as bs : List Entry} (ha : Ascending as) (hb : Ascending bs)
    (h : ∀ key, lookup key as = lookup key bs) : as = bs := by
  induction as generalizing bs with
  | nil =>
    cases bs with
    | nil => rfl
    | cons b bs => simpa [lookup] using h b.1
  | cons a as ih =>
    cases bs with
    | nil => simpa [lookup] using h a.1
    | cons b bs =>
      have hkey : a.1 = b.1 := by
        refine Bytes.eq_of_not_lt (fun hlt => ?_) (fun hlt => ?_)
        · have hat := h a.1
          rw [lookup_below hb hlt] at hat
          simp [lookup] at hat
        · have hat := h b.1
          rw [lookup_below ha hlt] at hat
          simp [lookup] at hat
      have hrecord : a.2 = b.2 := by simpa [lookup, hkey] using h a.1
      obtain ⟨hahead, hatail⟩ := List.pairwise_cons.mp ha
      obtain ⟨hbhead, hbtail⟩ := List.pairwise_cons.mp hb
      have hrest : as = bs := by
        refine ih hatail hbtail fun key => ?_
        by_cases hk : key = a.1
        · rw [hk, lookup_eq_none hahead, hkey, lookup_eq_none hbhead]
        · simpa [lookup, hk, hkey ▸ hk] using h key
      rw [Prod.ext hkey hrecord, hrest]

namespace Store

/-- A store is known by what it answers for each key. -/
@[ext] theorem ext {a b : Store} (h : ∀ key, a.get? key = b.get? key) : a = b := by
  obtain ⟨as, ha⟩ := a
  obtain ⟨bs, hb⟩ := b
  obtain rfl := eq_of_lookup_eq ha hb h
  rfl

@[simp] theorem get?_empty (key : Bytes) : empty.get? key = none := rfl

/-- Only the key that is written changes. -/
theorem get?_insert (st : Store) (key record k : Bytes) :
    (st.insert key record).get? k = if k = key then some record else st.get? k :=
  lookup_insertEntry key record k st.entries

/-- Only the key that is dropped changes. -/
theorem get?_erase (st : Store) (key k : Bytes) :
    (st.erase key).get? k = if k = key then none else st.get? k :=
  lookup_filter_ne key k st.entries

end Store

end Registry

end BucketAdmin
