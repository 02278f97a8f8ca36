import BucketAdmin.Proofs.Registry.Operations

/-!
# Admission to a registry

Any number of registries may be opened on one store, each with a capacity of its own or with none
(`Handle`), and each finds what the others wrote. After any run of changes through them the store
keeps some settings with the exact sum `totalMb` of their quotas, and that sum decides what is
admitted next (`admitted_iff`): a new bucket when its quota added to the sum is within the capacity,
a change of one that is there when this holds after its old quota is given back.

The check counts in 64 bits, with sums that are refused when they do not fit and differences that
stop at zero (`checkWords`). None of this shows (`checkCapacity_eq_checkWords`) but in one place:
the sum of what is stored is taken before anything is given back, so a registry with a capacity
refuses every change once that sum does not fit (`update_refused_overflowing`). Only registries
without a capacity can bring the store there.
-/

namespace BucketAdmin.Registry

open Bucket (Name Settings)

/-! ## The check in 64-bit words -/

section Words

def checkedAdd (a b : UInt64) : Option UInt64 :=
  if a.toNat + b.toNat < UInt64.size then some (a + b) else none

def saturatingSub (a b : UInt64) : UInt64 := if b ≤ a then a - b else 0

/-- The sum of the quotas, each added to the sum of those before it. -/
def checkedTotalMb (buckets : List Settings) : Option UInt64 :=
  buckets.foldlM (fun total s => checkedAdd total s.quotaMb) 0

/-- The check of a capacity with every count in 64 bits. -/
def checkWords (capacityMb : Option UInt64) (st : Store) (s : Settings) (releasedMb : UInt64) :
    Except Refusal Unit :=
  match capacityMb with
  | none => .ok ()
  | some capacity => do
    match checkedTotalMb (← list st) with
    | none => .error (.settings .totalTooLarge)
    | some total =>
      let used := saturatingSub total releasedMb
      let refusal : Refusal :=
        .settings (.overCapacity s.quotaMb (saturatingSub capacity used).toNat)
      match checkedAdd used s.quotaMb with
      | none => .error refusal
      | some requested => if capacity < requested then .error refusal else .ok ()

theorem toNat_saturatingSub (a b : UInt64) : (saturatingSub a b).toNat = a.toNat - b.toNat := by
  unfold saturatingSub
  split
  · next h => exact UInt64.toNat_sub_of_le _ _ h
  · next h =>
    have hlt : a.toNat < b.toNat := UInt64.lt_iff_toNat_lt.mp (UInt64.not_le.mp h)
    rw [UInt64.toNat_zero]
    omega

theorem toNat_add_of_fits {a b : UInt64} (h : a.toNat + b.toNat < UInt64.size) :
    (a + b).toNat = a.toNat + b.toNat := by
  rw [UInt64.toNat_add]
  exact Nat.mod_eq_of_lt h

/-- The sums grow from left to right, so one of them is too large only if the last is. -/
theorem foldlM_checkedAdd (buckets : List Settings) (start : UInt64) :
    buckets.foldlM (fun total s => checkedAdd total s.quotaMb) start =
      if start.toNat + totalMb buckets < UInt64.size
      then some (UInt64.ofNat (start.toNat + totalMb buckets)) else none := by
  induction buckets generalizing start with
  | nil =>
    have hfit : start.toNat + totalMb [] < UInt64.size := start.toNat_lt_size
    rw [if_pos hfit]
    simp [totalMb]
  | cons s rest ih =>
    have htotal : start.toNat + totalMb (s :: rest) =
        start.toNat + s.quotaMb.toNat + totalMb rest := by
      rw [totalMb, Nat.add_assoc]
    rw [List.foldlM_cons, checkedAdd, htotal]
    by_cases hfit : start.toNat + s.quotaMb.toNat < UInt64.size
    · rw [if_pos hfit, Option.bind_eq_bind, Option.bind_some, ih, toNat_add_of_fits hfit]
    · rw [if_neg hfit, if_neg (by omega)]
      rfl

theorem checkedTotalMb_eq (buckets : List Settings) :
    checkedTotalMb buckets =
      if totalMb buckets < UInt64.size then some (UInt64.ofNat (totalMb buckets)) else none := by
  have h := foldlM_checkedAdd buckets 0
  rwa [UInt64.toNat_zero, Nat.zero_add] at h

/-- **Counting in 64 bits decides as exact counting does.** -/
theorem checkCapacity_eq_checkWords (capacityMb : Option UInt64) (st : Store) (s : Settings)
    (releasedMb : UInt64) :
    checkCapacity capacityMb st s releasedMb.toNat = checkWords capacityMb st s releasedMb := by
  cases capacityMb with
  | none => rfl
  | some capacity =>
    unfold checkCapacity checkWords quotaUsedMb
    dsimp only
    cases list st with
    | error refusal => rfl
    | ok buckets =>
      simp only [ok_bind, checkedTotalMb_eq]
      by_cases hfit : totalMb buckets < UInt64.size
      · rw [if_pos hfit, if_pos hfit, ok_bind]
        have htotal : (UInt64.ofNat (totalMb buckets)).toNat = totalMb buckets :=
          UInt64.toNat_ofNat_of_lt' hfit
        have hused := toNat_saturatingSub (UInt64.ofNat (totalMb buckets)) releasedMb
        rw [htotal] at hused
        simp only [toNat_saturatingSub capacity, hused]
        unfold checkedAdd
        by_cases hsum : totalMb buckets - releasedMb.toNat + s.quotaMb.toNat < UInt64.size
        · rw [hused, if_pos hsum]
          have hadd := toNat_add_of_fits (hused.symm ▸ hsum)
          rw [hused] at hadd
          simp only [UInt64.lt_iff_toNat_lt, hadd]
          by_cases hle : totalMb buckets - releasedMb.toNat + s.quotaMb.toNat ≤ capacity.toNat
          · rw [if_pos hle, if_neg (Nat.not_lt.mpr hle)]
          · rw [if_neg hle, if_pos (Nat.lt_of_not_le hle)]
        · -- a sum that does not fit is over any capacity, since that does fit
          have hcapacity := capacity.toNat_lt_size
          rw [hused, if_neg hsum, if_neg (by omega)]
      · rw [if_neg hfit, if_neg hfit]
        rfl

end Words

/-! ## Registries on one store -/

/-- A registry opened on a store. -/
structure Handle where
  capacityMb : Option UInt64

/-- A change asked of a registry. -/
inductive Change where
  | insert (s : Settings)
  | update (s : Settings)
  | remove (n : Name)

namespace Handle

/-- The store after a change is asked for. A change that is refused leaves the store alone. -/
def apply (h : Handle) (st : Store) : Change → Store
  | .insert s =>
    match Registry.insert h.capacityMb st s with
    | .ok (_, st') => st'
    | .error _ => st
  | .update s =>
    match Registry.update h.capacityMb st s with
    | .ok (_, st') => st'
    | .error _ => st
  | .remove n =>
    match Registry.remove st n with
    | .ok (_, st') => st'
    | .error _ => st

/-- A sum of quotas is within the capacity, if there is one. -/
def Admits (h : Handle) (totalMb : Nat) : Prop :=
  ∀ capacity, h.capacityMb = some capacity → totalMb ≤ capacity.toNat

end Handle

/-- The store after changes asked one after another, each of some registry. -/
def run : Store → List (Handle × Change) → Store
  | st, [] => st
  | st, (h, c) :: rest => run (h.apply st c) rest

namespace Keeps

variable {st : Store} {buckets : List Settings} {s : Settings}

theorem checkCapacity_eq_ok_iff (h : Keeps st buckets) (capacityMb : Option UInt64) (s : Settings)
    (releasedMb : Nat) :
    Registry.checkCapacity capacityMb st s releasedMb = .ok () ↔
      ∀ capacity, capacityMb = some capacity → totalMb buckets < UInt64.size ∧
        totalMb buckets - releasedMb + s.quotaMb.toNat ≤ capacity.toNat := by
  cases capacityMb with
  | none => exact iff_of_true rfl (by rintro _ ⟨⟩)
  | some capacity =>
    simp only [Option.some.injEq, forall_eq']
    by_cases hfit : totalMb buckets < UInt64.size
    · rw [h.checkCapacity hfit]
      simp only [hfit, true_and]
      split <;> simp_all
    · simp only [hfit, false_and, iff_false]
      rw [Registry.checkCapacity, Registry.quotaUsedMb, h.list, ok_bind, if_neg hfit, error_bind]
      rintro ⟨⟩

/-- What is written within a capacity leaves a sum within that capacity. -/
theorem admits_put (h : Keeps st buckets) {handle : Handle}
    (hcheck : Registry.checkCapacity handle.capacityMb st s (quotaOf (found buckets s.name)) =
      .ok ()) :
    handle.Admits (totalMb (put s buckets)) := by
  intro capacity hc
  obtain ⟨-, hle⟩ := (h.checkCapacity_eq_ok_iff ..).mp hcheck capacity hc
  have hsum := totalMb_put (s := s) h.ordered
  have hthere := quotaOf_found_le buckets s.name
  omega

/-- What a change leaves is kept again, and its sum has not grown past what the registry admits. -/
theorem apply (h : Keeps st buckets) (handle : Handle) (change : Change) :
    ∃ after, Keeps (handle.apply st change) after ∧
      (totalMb after ≤ totalMb buckets ∨ handle.Admits (totalMb after)) := by
  have hsame : ∃ after, Keeps st after ∧
      (totalMb after ≤ totalMb buckets ∨ handle.Admits (totalMb after)) :=
    ⟨buckets, h, .inl (Nat.le_refl _)⟩
  cases change with
  | insert s =>
    cases hinsert : Registry.insert handle.capacityMb st s with
    | error refusal => simpa only [Handle.apply, hinsert] using hsame
    | ok done =>
      obtain ⟨hget, hnormal, hcheck, hwrite⟩ := insert_eq_ok hinsert
      have hfound : found buckets done.1.name = none := by
        rw [h.get] at hget
        rw [name_of_normalize hnormal, Except.ok.inj hget]
      have hadmits : handle.Admits (totalMb (put done.1 buckets)) :=
        h.admits_put (by rwa [hfound])
      simp only [Handle.apply, hinsert, hwrite]
      exact ⟨_, h.write _, .inr hadmits⟩
  | update s =>
    cases hupdate : Registry.update handle.capacityMb st s with
    | error refusal => simpa only [Handle.apply, hupdate] using hsame
    | ok done =>
      obtain ⟨previous, hget, -, hnormal, hcheck, hwrite⟩ := update_eq_ok hupdate
      have hfound : found buckets done.1.name = some previous := by
        rw [h.get] at hget
        rw [name_of_normalize hnormal, Except.ok.inj hget]
      have hadmits : handle.Admits (totalMb (put done.1 buckets)) :=
        h.admits_put (by rwa [hfound])
      simp only [Handle.apply, hupdate, hwrite]
      exact ⟨_, h.write _, .inr hadmits⟩
  | remove n =>
    cases hremove : Registry.remove st n with
    | error refusal => simpa only [Handle.apply, hremove] using hsame
    | ok done =>
      simp only [Handle.apply, hremove]
      rcases remove_eq_ok hremove with ⟨-, -, hst⟩ | ⟨-, -, hst⟩
      · rwa [hst]
      · rw [hst]
        exact ⟨without n buckets, h.erase n, .inl (totalMb_without_le n buckets)⟩

theorem run (h : Keeps st buckets) (steps : List (Handle × Change)) :
    ∃ after, Keeps (run st steps) after ∧
      (totalMb buckets < UInt64.size → (∀ step ∈ steps, step.1.capacityMb.isSome) →
        totalMb after < UInt64.size) := by
  induction steps generalizing st buckets with
  | nil => exact ⟨buckets, h, fun hfit _ => hfit⟩
  | cons step rest ih =>
    obtain ⟨handle, change⟩ := step
    obtain ⟨between, hbetween, hsum⟩ := h.apply handle change
    obtain ⟨after, hafter, hbounded⟩ := ih hbetween
    refine ⟨after, hafter, fun hfit hall => hbounded ?_ fun x hx => hall x (.tail _ hx)⟩
    obtain ⟨capacity, hc⟩ := Option.isSome_iff_exists.mp (hall _ List.mem_cons_self)
    rcases hsum with hle | hadmits
    · exact Nat.lt_of_le_of_lt hle hfit
    · exact Nat.lt_of_le_of_lt (hadmits capacity hc) capacity.toNat_lt_size

theorem isOk_insert_iff (h : Keeps st buckets) (hs : s.Valid) (handle : Handle) :
    (Registry.insert handle.capacityMb st s).isOk = true ↔
      found buckets s.name = none ∧ handle.Admits (totalMb buckets + s.quotaMb.toNat) := by
  rw [Registry.insert, h.get, ok_bind]
  cases hfound : found buckets s.name with
  | some previous => exact iff_of_false Bool.false_ne_true (by rintro ⟨⟨⟩, -⟩)
  | none =>
    rw [normalize, Settings.normalize_eq_normal hs, mapError_ok]
    have hcheck := h.checkCapacity_eq_ok_iff handle.capacityMb s.normal 0
    rw [Settings.normal_quotaMb, Nat.sub_zero] at hcheck
    -- a sum within a capacity fits 64 bits by itself
    have hadmits : handle.Admits (totalMb buckets + s.quotaMb.toNat) ↔
        ∀ capacity, handle.capacityMb = some capacity → totalMb buckets < UInt64.size ∧
          totalMb buckets + s.quotaMb.toNat ≤ capacity.toNat := by
      refine forall₂_congr fun capacity _ => ⟨fun hle => ⟨?_, hle⟩, And.right⟩
      have := capacity.toNat_lt_size
      omega
    rw [hadmits, ← hcheck]
    cases hresult : Registry.checkCapacity handle.capacityMb st s.normal 0 <;>
      simp [hresult, Except.isOk, Except.toBool]

theorem isOk_update_iff (h : Keeps st buckets) (hs : s.Valid) (handle : Handle) :
    (Registry.update handle.capacityMb st s).isOk = true ↔
      ∃ previous, found buckets s.name = some previous ∧ previous.kind = s.kind ∧
        ∀ capacity, handle.capacityMb = some capacity → totalMb buckets < UInt64.size ∧
          totalMb buckets - previous.quotaMb.toNat + s.quotaMb.toNat ≤ capacity.toNat := by
  rw [Registry.update, h.get, ok_bind]
  cases hfound : found buckets s.name with
  | none => exact iff_of_false Bool.false_ne_true (by rintro ⟨_, ⟨⟩, -⟩)
  | some previous =>
    simp only [Option.some.injEq, exists_eq_left']
    by_cases hkind : previous.kind = s.kind
    · have hcheck := h.checkCapacity_eq_ok_iff handle.capacityMb s.normal previous.quotaMb.toNat
      rw [Settings.normal_quotaMb] at hcheck
      rw [← hcheck, normalize, Settings.normalize_eq_normal hs, mapError_ok]
      cases hresult : Registry.checkCapacity handle.capacityMb st s.normal
        previous.quotaMb.toNat <;> simp [hkind, hresult, Except.isOk, Except.toBool]
    · simp [hkind, Except.isOk, Except.toBool]

/-- The sum of what is stored comes first, so nothing can be given back while it does not fit. -/
theorem update_of_overflow (h : Keeps st buckets) (hs : s.Valid) {previous : Settings}
    (hfound : found buckets s.name = some previous) (hkind : previous.kind = s.kind)
    (hover : ¬totalMb buckets < UInt64.size) (capacity : UInt64) :
    Registry.update (some capacity) st s = .error (.settings .totalTooLarge) := by
  have hcheck : Registry.checkCapacity (some capacity) st s.normal previous.quotaMb.toNat =
      .error (.settings .totalTooLarge) := by
    rw [Registry.checkCapacity, Registry.quotaUsedMb, h.list, ok_bind, if_neg hover, error_bind]
  rw [Registry.update, h.get, ok_bind, hfound]
  simp only [hkind, ne_eq, not_true_eq_false, if_false]
  rw [normalize, Settings.normalize_eq_normal hs, mapError_ok, ok_bind, hcheck, error_bind]

theorem unique {others : List Settings} (h : Keeps st buckets) (h' : Keeps st others) :
    buckets = others := by
  have hlist := h.list
  rw [h'.list] at hlist
  exact (Except.ok.inj hlist).symm

end Keeps

/-- **What a registry admits after any changes through any registries on its store.** A new bucket
is admitted exactly when its quota added to the exact sum of those stored is within the capacity. A
change of one that is there is admitted exactly when it keeps the kind and, where there is a
capacity, the sum of what is stored fits 64 bits and is within the capacity once the old quota is
given back and the new one added. That sum fits if all changes so far were asked of registries with
a capacity. Counting in 64 bits decides the same. -/
theorem admitted_iff (steps : List (Handle × Change)) :
    ∃ buckets, Keeps (run .empty steps) buckets ∧
      ((∀ step ∈ steps, step.1.capacityMb.isSome) → totalMb buckets < UInt64.size) ∧
      ∀ (handle : Handle) (s : Settings), s.Valid →
        ((insert handle.capacityMb (run .empty steps) s).isOk = true ↔
          found buckets s.name = none ∧ handle.Admits (totalMb buckets + s.quotaMb.toNat)) ∧
        ((update handle.capacityMb (run .empty steps) s).isOk = true ↔
          ∃ previous, found buckets s.name = some previous ∧ previous.kind = s.kind ∧
            ∀ capacity, handle.capacityMb = some capacity → totalMb buckets < UInt64.size ∧
              totalMb buckets - previous.quotaMb.toNat + s.quotaMb.toNat ≤ capacity.toNat) ∧
        ∀ releasedMb : UInt64,
          checkCapacity handle.capacityMb (run .empty steps) s releasedMb.toNat =
            checkWords handle.capacityMb (run .empty steps) s releasedMb := by
  obtain ⟨buckets, hkeeps, hbounded⟩ := keeps_empty.run steps
  refine ⟨buckets, hkeeps, hbounded (by decide), fun handle s hs => ?_⟩
  exact ⟨hkeeps.isOk_insert_iff hs handle, hkeeps.isOk_update_iff hs handle,
    checkCapacity_eq_checkWords handle.capacityMb _ s⟩

/-- A bucket with the largest quota there is. -/
def hugeBucket : Settings :=
  { Settings.blank ⟨"huge", by decide, by decide, by decide⟩ with quotaMb := 18446744073709551615 }

def smallBucket : Settings := .blank ⟨"small", by decide, by decide, by decide⟩

/-- Quotas of more than 64 bits together, admitted where there is no capacity. -/
def overflowing : List (Handle × Change) :=
  [(⟨none⟩, .insert hugeBucket), (⟨none⟩, .insert smallBucket)]

theorem keeps_overflowing : Keeps (run .empty overflowing) [hugeBucket, smallBucket] := by
  have hentries : (run .empty overflowing).entries = [hugeBucket, smallBucket].map entryOf := by
    decide +kernel
  exact hentries

/-- Making the huge bucket small would leave a sum of 200, well within a capacity of 4096, yet a
registry of that capacity refuses: the sum before the change does not fit 64 bits. -/
theorem update_refused_overflowing :
    let shrunk := { hugeBucket with quotaMb := 100 }
    Keeps (run .empty overflowing) [hugeBucket, smallBucket] ∧ shrunk.Valid ∧
      found [hugeBucket, smallBucket] shrunk.name = some hugeBucket ∧
      hugeBucket.kind = shrunk.kind ∧
      (Handle.mk (some 4096)).Admits (totalMb [hugeBucket, smallBucket] -
        hugeBucket.quotaMb.toNat + shrunk.quotaMb.toNat) ∧
      update (some 4096) (run .empty overflowing) shrunk =
        .error (.settings .totalTooLarge) := by
  intro shrunk
  have hvalid : shrunk.Valid := ⟨by decide, by decide⟩
  have hfound : found [hugeBucket, smallBucket] shrunk.name = some hugeBucket := by decide
  refine ⟨keeps_overflowing, hvalid, hfound, rfl, ?_, ?_⟩
  · rintro capacity ⟨⟩
    decide
  · exact keeps_overflowing.update_of_overflow hvalid hfound rfl (by decide) 4096

/-- Once the huge bucket is gone, what is left of a capacity of 300 goes to a second small one, but
not to one that is larger by a megabyte; the first may grow by as much. -/
theorem admitted_iff_after_removal :
    let steps := overflowing ++ [(⟨some 4096⟩, .remove hugeBucket.name)]
    let second := { hugeBucket with quotaMb := 200 }
    let grown := { smallBucket with quotaMb := 300 }
    Keeps (run .empty steps) [smallBucket] ∧ second.Valid ∧ grown.Valid ∧
      (insert (some 300) (run .empty steps) second).isOk = true ∧
      (insert (some 299) (run .empty steps) second).isOk = false ∧
      (update (some 300) (run .empty steps) grown).isOk = true := by
  intro steps second grown
  have hentries : (run .empty steps).entries = [smallBucket].map entryOf := by decide +kernel
  have hsecond : second.Valid := ⟨by decide, by decide⟩
  have hgrown : grown.Valid := ⟨by decide, by decide⟩
  obtain ⟨buckets, hkeeps, -, hadmitted⟩ := admitted_iff steps
  obtain rfl := hkeeps.unique hentries
  refine ⟨hkeeps, hsecond, hgrown, ?_, ?_, ?_⟩
  · refine (hadmitted ⟨some 300⟩ second hsecond).1.mpr ⟨by decide, ?_⟩
    rintro capacity ⟨⟩
    decide
  · refine Bool.eq_false_iff.mpr fun hok => ?_
    obtain ⟨-, hadmits⟩ := (hadmitted ⟨some 299⟩ second hsecond).1.mp hok
    exact absurd (hadmits 299 rfl) (by decide)
  · refine (hadmitted ⟨some 300⟩ grown hgrown).2.1.mpr ⟨smallBucket, by decide, rfl, ?_⟩
    rintro capacity ⟨⟩
    decide

end BucketAdmin.Registry
