import BucketAdmin.Proofs.Documents
import BucketAdmin.Registry.Buckets

/-!
# What a registry keeps

`Keeps st buckets`: the store `st` holds the records of the settings `buckets`, each under the key
of its name, in the order of the names, and nothing else. Since a record gives back the settings
it was made of, all that a registry answers can be told from that list: `Keeps.get`, `Keeps.list`,
`Keeps.quotaUsedMb`. Writing and erasing change the list as `put` and `without` do (`Keeps.write`,
`Keeps.erase`), and `totalMb_put` gives the sum of the quotas afterwards.
-/

namespace BucketAdmin

namespace Bucket

theorem Name.bytes_inj {a b : Name} (h : a.bytes = b.bytes) : a = b := by
  have htext : some a.text = some b.text := by
    rw [← Utf8.decode?_encode a.text, ← Utf8.decode?_encode b.text]
    exact congrArg Utf8.decode? h
  cases a
  cases b
  cases htext
  rfl

theorem Name.lt_irrefl (a : Name) : ¬a < a := Bytes.lt_irrefl a.bytes

theorem Name.lt_trans {a b c : Name} (h₁ : a < b) (h₂ : b < c) : a < c := Bytes.lt_trans h₁ h₂

theorem Name.eq_of_not_lt {a b : Name} (h₁ : ¬a < b) (h₂ : ¬b < a) : a = b :=
  Name.bytes_inj (Bytes.eq_of_not_lt h₁ h₂)

end Bucket

namespace Registry

open Bucket (Name Settings)

theorem append_lt_append_iff {l a b : Bytes} : l ++ a < l ++ b ↔ a < b := by
  induction l with
  | nil => exact Iff.rfl
  | cons x l ih => rw [List.cons_append, List.cons_append, List.cons_lt_cons_iff, ← ih]; simp

theorem key_lt_key_iff {a b : Name} : key a < key b ↔ a < b := append_lt_append_iff

theorem key_injective {a b : Name} (h : key a = key b) : a = b :=
  Name.bytes_inj (List.append_cancel_left h)

/-! ## Lists of settings by name -/

/-- The first settings of that name. -/
def found (buckets : List Settings) (n : Name) : Option Settings :=
  buckets.find? fun s => s.name = n

/-- Put settings into a list in the order of names, in place of any of that name. -/
def put (s : Settings) : List Settings → List Settings
  | [] => [s]
  | t :: rest =>
    if s.name < t.name then s :: t :: rest
    else if t.name < s.name then t :: put s rest
    else s :: rest

/-- The settings of other names. -/
def without (n : Name) (buckets : List Settings) : List Settings :=
  buckets.filter fun s => s.name ≠ n

/-- Names strictly ascend. -/
abbrev Ordered (buckets : List Settings) : Prop := buckets.Pairwise fun s t => s.name < t.name

variable {buckets : List Settings} {s t : Settings} {n : Name}

theorem found_cons : found (t :: buckets) n = if t.name = n then some t else found buckets n := by
  by_cases h : t.name = n <;> simp [found, h]

theorem mem_of_found (h : found buckets n = some s) : s ∈ buckets := List.mem_of_find?_eq_some h

theorem name_of_found (h : found buckets n = some s) : s.name = n := by
  simpa using List.find?_some h

theorem found_eq_none_of_lt (h : ∀ t ∈ buckets, n < t.name) : found buckets n = none := by
  refine List.find?_eq_none.mpr fun t ht heq => Name.lt_irrefl n ?_
  have hname : t.name = n := by simpa using heq
  exact hname ▸ h t ht

theorem found_of_mem (h : Ordered buckets) (hs : s ∈ buckets) : found buckets s.name = some s := by
  induction buckets with
  | nil => cases hs
  | cons t rest ih =>
    obtain ⟨hhead, htail⟩ := List.pairwise_cons.mp h
    rw [found_cons]
    rcases List.mem_cons.mp hs with rfl | hs
    · exact if_pos rfl
    · rw [if_neg fun he => Name.lt_irrefl _ (he ▸ hhead s hs), ih htail hs]

theorem found_put (s : Settings) (buckets : List Settings) (n : Name) :
    found (put s buckets) n = if s.name = n then some s else found buckets n := by
  induction buckets with
  | nil => rw [put, found_cons]
  | cons t rest ih =>
    rw [put]
    split
    · rw [found_cons]
    · next hge =>
      split
      · next hgt =>
        rw [found_cons, ih, found_cons]
        by_cases h : s.name = n
        · rw [if_neg fun he => Name.lt_irrefl _ ((he.trans h.symm) ▸ hgt), if_pos h, if_pos h]
        · rw [if_neg h, if_neg h]
      · next hle =>
        have hname : s.name = t.name := Name.eq_of_not_lt hge hle
        rw [found_cons, found_cons, hname]
        by_cases h : t.name = n
        · rw [if_pos h, if_pos h]
        · rw [if_neg h, if_neg h, if_neg h]

theorem found_without (m n : Name) (buckets : List Settings) :
    found (without m buckets) n = if m = n then none else found buckets n := by
  induction buckets with
  | nil => simp [found, without]
  | cons t rest ih =>
    by_cases ht : t.name = m
    · have hdrop : without m (t :: rest) = without m rest := by simp [without, ht]
      rw [hdrop, ih, found_cons, ht]
      split <;> rfl
    · have hkeep : without m (t :: rest) = t :: without m rest := by simp [without, ht]
      rw [hkeep, found_cons, ih, found_cons]
      by_cases h : m = n
      · rw [if_neg fun he => ht (he.trans h.symm), if_pos h, if_pos h]
      · rw [if_neg h, if_neg h]

theorem mem_put (h : t ∈ put s buckets) : t = s ∨ t ∈ buckets := by
  induction buckets with
  | nil => exact .inl (List.mem_singleton.mp h)
  | cons u rest ih =>
    rw [put] at h
    split at h
    · exact List.mem_cons.mp h
    · split at h
      · rcases List.mem_cons.mp h with rfl | h
        · exact .inr List.mem_cons_self
        · exact (ih h).imp id (List.mem_cons_of_mem _)
      · exact (List.mem_cons.mp h).imp id (List.mem_cons_of_mem _)

/-! ## The sum of the quotas -/

/-- The quota that settings give back, if there are any. -/
def quotaOf (found : Option Settings) : Nat := found.elim 0 (·.quotaMb.toNat)

/-- Settings that are put into a list count in place of those of their name. -/
theorem totalMb_put (h : Ordered buckets) :
    totalMb (put s buckets) + quotaOf (found buckets s.name) =
      totalMb buckets + s.quotaMb.toNat := by
  induction buckets with
  | nil => simp [put, found, quotaOf, totalMb]
  | cons t rest ih =>
    obtain ⟨hhead, htail⟩ := List.pairwise_cons.mp h
    rw [put]
    split
    · next hlt =>
      have hnone : found (t :: rest) s.name = none := by
        refine found_eq_none_of_lt fun u hu => ?_
        rcases List.mem_cons.mp hu with rfl | hu
        · exact hlt
        · exact Name.lt_trans hlt (hhead u hu)
      rw [hnone]
      simp only [totalMb, quotaOf, Option.elim_none]
      omega
    · next hge =>
      split
      · next hgt =>
        rw [found_cons, if_neg fun he => Name.lt_irrefl _ (he ▸ hgt)]
        have ih := ih htail
        simp only [totalMb]
        omega
      · next hle =>
        rw [found_cons, if_pos (Name.eq_of_not_lt hge hle).symm]
        simp only [totalMb, quotaOf, Option.elim_some]
        omega

theorem quotaMb_le_totalMb (h : s ∈ buckets) : s.quotaMb.toNat ≤ totalMb buckets := by
  induction buckets with
  | nil => cases h
  | cons t rest ih =>
    simp only [totalMb]
    rcases List.mem_cons.mp h with rfl | h
    · omega
    · have := ih h
      omega

theorem quotaOf_found_le (buckets : List Settings) (n : Name) :
    quotaOf (found buckets n) ≤ totalMb buckets := by
  cases h : found buckets n with
  | none => exact Nat.zero_le _
  | some s => exact quotaMb_le_totalMb (mem_of_found h)

/-- What is taken is what the other buckets take and what the bucket of that name takes. -/
theorem totalMb_without (h : Ordered buckets) (n : Name) :
    totalMb (without n buckets) + quotaOf (found buckets n) = totalMb buckets := by
  induction buckets with
  | nil => rfl
  | cons t rest ih =>
    obtain ⟨hhead, htail⟩ := List.pairwise_cons.mp h
    have ih := ih htail
    by_cases ht : t.name = n
    · have hnone : found rest n = none := found_eq_none_of_lt (ht ▸ hhead)
      have hdrop : without n (t :: rest) = without n rest := by simp [without, ht]
      rw [hnone] at ih
      rw [hdrop, found_cons, if_pos ht]
      simp only [totalMb, quotaOf, Option.elim_some, Option.elim_none] at ih ⊢
      omega
    · have hkeep : without n (t :: rest) = t :: without n rest := by simp [without, ht]
      rw [hkeep, found_cons, if_neg ht]
      simp only [totalMb]
      omega

theorem totalMb_without_le (n : Name) (buckets : List Settings) :
    totalMb (without n buckets) ≤ totalMb buckets := by
  induction buckets with
  | nil => exact Nat.le_refl _
  | cons t rest ih =>
    by_cases h : t.name = n
    · have hdrop : without n (t :: rest) = without n rest := by simp [without, h]
      rw [hdrop]
      exact Nat.le_trans ih (Nat.le_add_left ..)
    · have hkeep : without n (t :: rest) = t :: without n rest := by simp [without, h]
      rw [hkeep]
      exact Nat.add_le_add_left ih _

/-! ## The store of a list of settings -/

/-- The entry that keeps settings. -/
def entryOf (s : Settings) : Entry := (key s.name, s.toRecord)

/-- The store holds these settings, in this order, and nothing else. -/
def Keeps (st : Store) (buckets : List Settings) : Prop := st.entries = buckets.map entryOf

@[simp] theorem decode_toRecord (s : Settings) : decode s.toRecord = .ok s := by
  rw [decode, Settings.ofRecord_toRecord, mapError_ok]

theorem keeps_empty : Keeps .empty [] := rfl

namespace Keeps

variable {st : Store}

theorem ordered (h : Keeps st buckets) : Ordered buckets := by
  have hasc : (buckets.map entryOf).Pairwise fun a b => a.1 < b.1 := h ▸ st.ascending
  exact (List.pairwise_map.mp hasc).imp key_lt_key_iff.mp

theorem get? (h : Keeps st buckets) (n : Name) :
    st.get? (key n) = (found buckets n).map Settings.toRecord := by
  rw [Store.get?, h]
  clear h
  induction buckets with
  | nil => rfl
  | cons t rest ih =>
    have hkey : key n = (entryOf t).1 ↔ t.name = n :=
      ⟨fun he => (key_injective he).symm, fun he => congrArg key he.symm⟩
    rw [List.map_cons, lookup, found_cons]
    by_cases ht : t.name = n
    · rw [if_pos ht, if_pos (hkey.mpr ht)]
      rfl
    · rw [if_neg ht, if_neg (mt hkey.mp ht), ih]

theorem get (h : Keeps st buckets) (n : Name) : get st n = .ok (found buckets n) := by
  rw [Registry.get, h.get? n]
  cases found buckets n with
  | none => rfl
  | some s =>
    simp only [Option.map_some, decode_toRecord]
    rfl

theorem list (h : Keeps st buckets) : list st = .ok buckets := by
  have hlead : ∀ e ∈ buckets.map entryOf, keyLead.isPrefixOf e.1 = true := by
    intro e he
    obtain ⟨s, -, rfl⟩ := List.mem_map.mp he
    exact List.isPrefixOf_iff_prefix.mpr (List.prefix_append _ _)
  have hrecords : st.withLead keyLead = buckets.map Settings.toRecord := by
    rw [Store.withLead, h, List.filter_eq_self.mpr hlead, List.map_map]
    rfl
  rw [Registry.list, hrecords]
  exact mapM_map_eq_ok fun s _ => decode_toRecord s

theorem quotaUsedMb (h : Keeps st buckets) (hfit : totalMb buckets < UInt64.size) :
    quotaUsedMb st = .ok (totalMb buckets) := by
  rw [Registry.quotaUsedMb, h.list, ok_bind]
  exact if_pos hfit

theorem write (h : Keeps st buckets) (s : Settings) : Keeps (write st s) (put s buckets) := by
  change insertEntry (key s.name) s.toRecord st.entries = (put s buckets).map entryOf
  rw [h]
  clear h
  induction buckets with
  | nil => rfl
  | cons t rest ih =>
    rw [List.map_cons, insertEntry, put]
    simp only [entryOf, key_lt_key_iff]
    split
    · rfl
    · split
      · rw [List.map_cons, ← ih]
        rfl
      · rfl

theorem erase (h : Keeps st buckets) (n : Name) :
    Keeps (st.erase (key n)) (without n buckets) := by
  have hsame : (fun e : Entry => decide (e.1 ≠ key n)) ∘ entryOf =
      fun s : Settings => decide (s.name ≠ n) := by
    funext s
    have hiff : key s.name = key n ↔ s.name = n := ⟨key_injective, congrArg key⟩
    simp [entryOf, hiff]
  change st.entries.filter _ = _
  rw [h, List.filter_map, hsame]
  rfl

end Keeps

end Registry

end BucketAdmin
