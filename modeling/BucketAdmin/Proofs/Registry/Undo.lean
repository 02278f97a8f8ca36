import BucketAdmin.Proofs.Registry.Admission

/-!
# Doing again and undoing

Whatever is asked of a registry, a store is left as it is, or one bucket is written as a server
stores it, or one is dropped (`apply_cases`). So what is stored is always what would be stored for
it again (`Keeps.run_settled`), and the laws of one record say what a second operation brings:
writing a record that is there changes nothing (`write_of_get?`), and dropping and writing a record
undo each other (`erase_write`, `write_erase`).

The capacity is checked both times, with different sums. It admits the second operation because the
quota that is given back is the one that was taken: a bucket may always be set to what it is set to
(`Keeps.update_stored`), and what was within a capacity before a bucket was dropped is within it
once the bucket is back (`Keeps.insert_removed`).
-/

namespace BucketAdmin

namespace Bucket.Settings

variable {s t : Settings}

theorem kind_of_normalize (h : s.normalize = .ok t) : t.kind = s.kind := by
  rw [eq_normal_of_normalize h, normal_kind]

/-- What is stored is what would be stored for it again. -/
theorem normalize_of_normalize (h : s.normalize = .ok t) : t.normalize = .ok t := by
  unfold normalize at h
  split at h
  · next hk =>
    obtain ⟨hvalid, rfl⟩ := validate_eq_ok_iff.mp h
    simp only [normalize, hk]
    exact validate_eq_ok_iff.mpr ⟨⟨hvalid.quota, hvalid.replicas⟩, rfl⟩
  · next hk =>
    cases h
    simp only [normalize, hk]
  · next hk =>
    cases h
    simp only [normalize, hk]

end Bucket.Settings

namespace Registry

open Bucket (Name Settings)

variable {capacityMb : Option UInt64} {st st' : Store} {buckets : List Settings} {s t : Settings}
  {n : Name} {k : Bytes}

/-! ## Writing and dropping one record -/

theorem get?_write_of_ne (h : k ≠ key s.name) : (write st s).get? k = st.get? k := by
  rw [write, Store.get?_insert, if_neg h]

theorem get?_write_self (st : Store) (s : Settings) :
    (write st s).get? (key s.name) = some s.toRecord := by
  rw [write, Store.get?_insert, if_pos rfl]

/-- To write a record that is there changes nothing. -/
theorem write_of_get? (h : st.get? (key s.name) = some s.toRecord) : write st s = st := by
  ext k : 1
  by_cases hk : k = key s.name
  · rw [hk, get?_write_self, h]
  · exact get?_write_of_ne hk

/-- What was written where nothing was is dropped again. -/
theorem erase_write (h : st.get? (key s.name) = none) :
    (write st s).erase (key s.name) = st := by
  ext k : 1
  rw [Store.get?_erase]
  by_cases hk : k = key s.name
  · rw [if_pos hk, hk, h]
  · rw [if_neg hk, get?_write_of_ne hk]

/-- What was dropped is written again. -/
theorem write_erase (h : st.get? (key s.name) = some s.toRecord) :
    write (st.erase (key s.name)) s = st := by
  ext k : 1
  by_cases hk : k = key s.name
  · rw [hk, get?_write_self, h]
  · rw [get?_write_of_ne hk, Store.get?_erase, if_neg hk]

/-! ## What a change makes of a store -/

/-- The bucket that a change is about. -/
def Change.subject : Change → Name
  | .insert s | .update s => s.name
  | .remove n => n

theorem normalize_eq_ok (h : normalize s = .ok t) :
    t.name = s.name ∧ t.kind = s.kind ∧ normalize t = .ok t := by
  have hnormal := mapError_eq_ok.mp h
  exact ⟨Settings.name_of_normalize hnormal, Settings.kind_of_normalize hnormal,
    mapError_eq_ok.mpr (Settings.normalize_of_normalize hnormal)⟩

/-- The settings that a change brings. -/
def Change.sent : Change → Option Settings
  | .insert s | .update s => some s
  | .remove _ => none

theorem Change.subject_of_sent {c : Change} (h : c.sent = some s) : c.subject = s.name := by
  cases c with
  | insert t | update t =>
    cases h
    rfl
  | remove n => cases h

/-- What is written is what the server makes of the settings that were sent. -/
theorem apply_sent (handle : Handle) (st : Store) (c : Change) :
    handle.apply st c = st ∨
      (∃ s t, c.sent = some s ∧ normalize s = .ok t ∧ handle.apply st c = write st t) ∨
      handle.apply st c = st.erase (key c.subject) := by
  cases c with
  | insert s =>
    simp only [Handle.apply]
    split
    · next t st' hinsert =>
      obtain ⟨-, hnormal, -, rfl⟩ := insert_eq_ok hinsert
      exact .inr (.inl ⟨s, t, rfl, hnormal, rfl⟩)
    · exact .inl rfl
  | update s =>
    simp only [Handle.apply]
    split
    · next t st' hupdate =>
      obtain ⟨-, -, -, hnormal, -, rfl⟩ := update_eq_ok hupdate
      exact .inr (.inl ⟨s, t, rfl, hnormal, rfl⟩)
    · exact .inl rfl
  | remove n =>
    simp only [Handle.apply]
    split
    · next there st' hremove =>
      rcases remove_eq_ok hremove with ⟨-, -, rfl⟩ | ⟨-, -, rfl⟩
      · exact .inl rfl
      · exact .inr (.inr rfl)
    · exact .inl rfl

theorem apply_cases (handle : Handle) (st : Store) (c : Change) :
    handle.apply st c = st ∨
      (∃ t, t.name = c.subject ∧ normalize t = .ok t ∧ handle.apply st c = write st t) ∨
      handle.apply st c = st.erase (key c.subject) := by
  rcases apply_sent handle st c with happly | ⟨s, t, hsent, hnormal, happly⟩ | happly
  · exact .inl happly
  · obtain ⟨hname, -, hagain⟩ := normalize_eq_ok hnormal
    exact .inr (.inl ⟨t, hname.trans (Change.subject_of_sent hsent).symm, hagain, happly⟩)
  · exact .inr (.inr happly)

/-- The records of other buckets stay. -/
theorem get?_apply_of_ne (handle : Handle) (st : Store) (c : Change) (hk : k ≠ key c.subject) :
    (handle.apply st c).get? k = st.get? k := by
  rcases apply_cases handle st c with h | ⟨t, hname, -, h⟩ | h
  · rw [h]
  · rw [h, get?_write_of_ne (hname ▸ hk)]
  · rw [h, Store.get?_erase, if_neg hk]

namespace Keeps

theorem apply_settled (h : Keeps st buckets) (hsettled : ∀ s ∈ buckets, normalize s = .ok s)
    (handle : Handle) (c : Change) :
    ∃ after, Keeps (handle.apply st c) after ∧ ∀ s ∈ after, normalize s = .ok s := by
  rcases apply_cases handle st c with happly | ⟨t, -, hagain, happly⟩ | happly
  · rw [happly]
    exact ⟨buckets, h, hsettled⟩
  · rw [happly]
    refine ⟨put t buckets, h.write t, fun s hs => ?_⟩
    rcases mem_put hs with rfl | hs
    · exact hagain
    · exact hsettled s hs
  · rw [happly]
    exact ⟨without c.subject buckets, h.erase c.subject,
      fun s hs => hsettled s (List.mem_filter.mp hs).1⟩

/-- After any changes, what is stored is what would be stored for it again. -/
theorem run_settled (h : Keeps st buckets) (hsettled : ∀ s ∈ buckets, normalize s = .ok s)
    (steps : List (Handle × Change)) :
    ∃ after, Keeps (Registry.run st steps) after ∧ ∀ s ∈ after, normalize s = .ok s := by
  induction steps generalizing st buckets with
  | nil => exact ⟨buckets, h, hsettled⟩
  | cons step rest ih =>
    obtain ⟨between, hbetween, hbetweenSettled⟩ := h.apply_settled hsettled step.1 step.2
    exact ih hbetween hbetweenSettled

/-! ## A second operation -/

/-- A bucket may be set to what it is set to wherever the sum of all quotas is admitted, and nothing
changes. -/
theorem update_stored (h : Keeps st buckets) {handle : Handle}
    (hfound : found buckets t.name = some t) (hnormal : normalize s = .ok t)
    (hadmits : handle.Admits (totalMb buckets)) :
    Registry.update handle.capacityMb st s = .ok (t, st) := by
  obtain ⟨hname, hkind, -⟩ := normalize_eq_ok hnormal
  have hcheck : Registry.checkCapacity handle.capacityMb st t t.quotaMb.toNat = .ok () := by
    refine (h.checkCapacity_eq_ok_iff ..).mpr fun capacity hc => ?_
    have hle := hadmits capacity hc
    have hthere := quotaMb_le_totalMb (mem_of_found hfound)
    have hsize := capacity.toNat_lt_size
    omega
  have hsame : Registry.write st t = st := by
    apply write_of_get?
    rw [h.get?, hfound]
    rfl
  rw [Registry.update, h.get, ← hname, hfound, ok_bind]
  simp only [hkind, ne_eq, not_true_eq_false, if_false, hnormal, ok_bind, hcheck, hsame]

theorem update_again (h : Keeps st buckets) {handle : Handle}
    (hupdate : Registry.update handle.capacityMb st s = .ok (t, st')) :
    Registry.update handle.capacityMb st' s = .ok (t, st') ∧
      Registry.update handle.capacityMb st' t = .ok (t, st') := by
  obtain ⟨previous, hget, -, hnormal, hcheck, rfl⟩ := update_eq_ok hupdate
  obtain ⟨hname, -, hagain⟩ := normalize_eq_ok hnormal
  have hprevious : found buckets t.name = some previous := by
    rw [h.get] at hget
    rw [hname, Except.ok.inj hget]
  have hadmits : handle.Admits (totalMb (put t buckets)) := h.admits_put (by rwa [hprevious])
  have hfound : found (put t buckets) t.name = some t := by rw [found_put, if_pos rfl]
  exact ⟨(h.write t).update_stored hfound hnormal hadmits,
    (h.write t).update_stored hfound hagain hadmits⟩

theorem insert_again (h : Keeps st buckets) {handle : Handle}
    (hinsert : Registry.insert handle.capacityMb st s = .ok (t, st')) :
    Registry.update handle.capacityMb st' s = .ok (t, st') ∧
      Registry.remove st' s.name = .ok (true, st) := by
  obtain ⟨hget, hnormal, hcheck, rfl⟩ := insert_eq_ok hinsert
  obtain ⟨hname, -, -⟩ := normalize_eq_ok hnormal
  have hnew : found buckets t.name = none := by
    rw [h.get] at hget
    rw [hname, Except.ok.inj hget]
  have hadmits : handle.Admits (totalMb (put t buckets)) := h.admits_put (by rwa [hnew])
  have hfound : found (put t buckets) t.name = some t := by rw [found_put, if_pos rfl]
  refine ⟨(h.write t).update_stored hfound hnormal hadmits, ?_⟩
  have hfree : st.get? (key t.name) = none := by rw [h.get?, hnew, Option.map_none]
  rw [(h.write t).remove, ← hname, hfound, erase_write hfree]
  rfl

/-- A bucket that was dropped from a sum that is admitted is stored again as it was. -/
theorem insert_removed (h : Keeps st buckets) (hsettled : ∀ s ∈ buckets, normalize s = .ok s)
    {handle : Handle} (hremove : Registry.remove st n = .ok (true, st'))
    (hadmits : handle.Admits (totalMb buckets)) :
    ∃ s, Registry.get st n = .ok (some s) ∧
      Registry.insert handle.capacityMb st' s = .ok (s, st) := by
  rcases remove_eq_ok hremove with ⟨hfalse, -, -⟩ | ⟨-, ⟨s, hget⟩, rfl⟩
  · cases hfalse
  refine ⟨s, hget, ?_⟩
  have hfound : found buckets n = some s := by
    rw [h.get] at hget
    exact Except.ok.inj hget
  obtain rfl : s.name = n := name_of_found hfound
  have hleft := h.erase s.name
  have hnew : Registry.get (st.erase (key s.name)) s.name = .ok none := by
    rw [hleft.get, found_without, if_pos rfl]
  have hcheck : Registry.checkCapacity handle.capacityMb (st.erase (key s.name)) s 0 = .ok () := by
    refine (hleft.checkCapacity_eq_ok_iff ..).mpr fun capacity hc => ?_
    have hle := hadmits capacity hc
    have hsum := totalMb_without h.ordered s.name
    have hsize := capacity.toNat_lt_size
    rw [hfound] at hsum
    simp only [quotaOf, Option.elim_some] at hsum
    omega
  have hback : Registry.write (st.erase (key s.name)) s = st := by
    apply write_erase
    rw [h.get?, hfound]
    rfl
  rw [Registry.insert, hnew, ok_bind, hsettled s (mem_of_found hfound)]
  simp only [Option.isSome_none, Bool.false_eq_true, if_false, ok_bind, hcheck, hback]

end Keeps

/-- **Operations may be done again and undone,** in any store that changes through any registries
lead to, and through any registry, with a capacity or without. To update a bucket again, with what
was sent or with what was stored, gives the same and changes nothing. A bucket that was registered
may be updated with what was sent, which changes nothing, and its removal gives back the store as it
was before. And a removal is undone by registering what was stored, where the sum of all quotas was
within the capacity. -/
theorem retried_and_undone (steps : List (Handle × Change)) (handle : Handle) :
    let st := run .empty steps
    (∀ s t st', update handle.capacityMb st s = .ok (t, st') →
      update handle.capacityMb st' s = .ok (t, st') ∧
      update handle.capacityMb st' t = .ok (t, st')) ∧
    (∀ s t st', insert handle.capacityMb st s = .ok (t, st') →
      update handle.capacityMb st' s = .ok (t, st') ∧ remove st' s.name = .ok (true, st)) ∧
    ∀ n st' buckets, remove st n = .ok (true, st') → list st = .ok buckets →
      handle.Admits (totalMb buckets) →
      ∃ s, get st n = .ok (some s) ∧ insert handle.capacityMb st' s = .ok (s, st) := by
  intro st
  obtain ⟨kept, hkeeps, hsettled⟩ := keeps_empty.run_settled nofun steps
  refine ⟨fun s t st' => hkeeps.update_again, fun s t st' => hkeeps.insert_again, ?_⟩
  intro n st' buckets hremove hlist hadmits
  obtain rfl : kept = buckets := Except.ok.inj (hkeeps.list.symm.trans hlist)
  exact hkeeps.insert_removed hsettled hremove hadmits

/-- A cache that is not stored as it is sent. -/
def spareCache : Settings :=
  { hugeBucket with kind := .memcached, quotaMb := 200, replicas := 2 }

/-- On a store that keeps a small bucket of 100 megabytes, a registry of 300 takes a cache that
needs all the rest, takes it again, lets it go, and takes it on another port twice. A registry of
100 takes the small one back. -/
theorem retried_and_undone_spareCache :
    let steps := overflowing ++ [(⟨some 4096⟩, .remove hugeBucket.name)]
    let st := run .empty steps
    let stored := write st spareCache.normal
    let moved := { spareCache with port := 11211 }
    let after := write stored moved.normal
    (insert (some 300) st spareCache = .ok (spareCache.normal, stored) ∧
      update (some 300) stored spareCache = .ok (spareCache.normal, stored) ∧
      remove stored spareCache.name = .ok (true, st)) ∧
    (update (some 300) stored moved = .ok (moved.normal, after) ∧
      update (some 300) after moved = .ok (moved.normal, after) ∧
      update (some 300) after moved.normal = .ok (moved.normal, after)) ∧
    remove st smallBucket.name = .ok (true, .empty) ∧
      insert (some 100) .empty smallBucket = .ok (smallBucket, st) := by
  intro steps st stored moved after
  refine ⟨?_, ?_, ?_⟩
  · obtain ⟨-, hinserted, -⟩ := retried_and_undone steps ⟨some 300⟩
    have hinsert : insert (some 300) st spareCache = .ok (spareCache.normal, stored) := by
      decide +kernel
    exact ⟨hinsert, hinserted _ _ _ hinsert⟩
  · obtain ⟨hupdated, -, -⟩ :=
      retried_and_undone (steps ++ [(⟨some 300⟩, .insert spareCache)]) ⟨some 300⟩
    have hupdate : update (some 300) stored moved = .ok (moved.normal, after) := by
      decide +kernel
    have hrun : run .empty (steps ++ [(⟨some 300⟩, .insert spareCache)]) = stored := by
      decide +kernel
    rw [hrun] at hupdated
    exact ⟨hupdate, hupdated _ _ _ hupdate⟩
  · obtain ⟨-, -, hremoved⟩ := retried_and_undone steps ⟨some 100⟩
    have hremove : remove st smallBucket.name = .ok (true, .empty) := by decide +kernel
    have hlist : list st = .ok [smallBucket] := by decide +kernel
    have hstored : get st smallBucket.name = .ok (some smallBucket) := by decide +kernel
    obtain ⟨s, hget, hback⟩ := hremoved _ _ _ hremove hlist (by rintro capacity ⟨⟩; decide)
    obtain rfl : smallBucket = s := Option.some.inj (Except.ok.inj (hstored.symm.trans hget))
    exact ⟨hremove, hback⟩

end Registry

end BucketAdmin
