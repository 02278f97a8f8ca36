import Mathlib.Data.List.Perm.Basic
import BucketAdmin.Proofs.Registry.Undo
import BucketAdmin.Proofs.Server.Lifetime

/-!
# Independent operations commute

A registry without a capacity reads and writes nothing but the record of the bucket that a change is
about: what it answers and leaves there depends on that record alone (`apply_congr`), and all other
records stay (`get?_apply_of_ne`). So changes of different buckets may trade places (`apply_comm`).

With a capacity they may not, since the sum of all quotas decides. But where new buckets fit all at
once, they fit one after another in any order: each is stored under its own name and takes its quota
from what is left, and what is left is enough for the rest (`Independent.step`). The order then
shows neither in the responses nor in what is stored (`independent_commute`).
-/

namespace BucketAdmin

namespace Registry

open Bucket (Name Settings)

/-! ## Changes through a registry without a capacity -/

/-- What a change is answered: what is stored, or whether there was a bucket to remove. -/
inductive Reply where
  | stored (s : Settings)
  | removed (there : Bool)
  deriving DecidableEq

/-- What a change is answered. The store after it is `Handle.apply`. -/
def Handle.reply (h : Handle) (st : Store) : Change → Except Refusal Reply
  | .insert s => (Registry.insert h.capacityMb st s).map fun done => .stored done.1
  | .update s => (Registry.update h.capacityMb st s).map fun done => .stored done.1
  | .remove n => (Registry.remove st n).map fun done => .removed done.1

/-- A registry without a capacity. -/
def unbounded : Handle := ⟨none⟩

variable {st st' : Store} {c d : Change} {s t : Settings} {n : Name}

/-- Without a capacity, what a change is answered and the record that it leaves depend on the record
of its bucket alone. -/
theorem apply_congr (h : st'.get? (key c.subject) = st.get? (key c.subject)) :
    unbounded.reply st' c = unbounded.reply st c ∧
      (unbounded.apply st' c).get? (key c.subject) =
        (unbounded.apply st c).get? (key c.subject) := by
  cases c with
  | insert s =>
    have hget : get st' s.name = get st s.name := get_congr h
    simp only [Handle.reply, Handle.apply, Registry.insert, unbounded, checkCapacity, hget,
      Change.subject] at h ⊢
    rcases get st s.name with refusal | _ | previous
    · exact ⟨rfl, h⟩
    · cases hnormal : normalize s with
      | error refusal => exact ⟨rfl, h⟩
      | ok t =>
        have hname := name_of_normalize hnormal
        simp [Except.map, ← hname, get?_write_self]
    · exact ⟨rfl, h⟩
  | update s =>
    have hget : get st' s.name = get st s.name := get_congr h
    simp only [Handle.reply, Handle.apply, Registry.update, unbounded, checkCapacity, hget,
      Change.subject] at h ⊢
    rcases get st s.name with refusal | _ | previous
    · exact ⟨rfl, h⟩
    · exact ⟨rfl, h⟩
    · by_cases hkind : previous.kind = s.kind
      · cases hnormal : normalize s with
        | error refusal => simp [hkind, Except.map, h]
        | ok t =>
          have hname := name_of_normalize hnormal
          simp [hkind, Except.map, ← hname, get?_write_self]
      · simp [hkind, Except.map, h]
  | remove n =>
    have hget : get st' n = get st n := get_congr h
    simp only [Handle.reply, Handle.apply, Registry.remove, hget, Change.subject] at h ⊢
    rcases get st n with refusal | _ | previous
    · exact ⟨rfl, h⟩
    · exact ⟨rfl, h⟩
    · simp [Except.map, Store.get?_erase]

/-- **Changes of different buckets may trade places** where there is no capacity. -/
theorem apply_comm (h : c.subject ≠ d.subject) (st : Store) :
    unbounded.reply (unbounded.apply st c) d = unbounded.reply st d ∧
      unbounded.apply (unbounded.apply st c) d = unbounded.apply (unbounded.apply st d) c := by
  have hkeys : key c.subject ≠ key d.subject := fun hkey => h (key_injective hkey)
  obtain ⟨hreply, hd⟩ := apply_congr (c := d) (get?_apply_of_ne unbounded st c hkeys.symm)
  obtain ⟨-, hc⟩ := apply_congr (c := c) (get?_apply_of_ne unbounded st d hkeys)
  refine ⟨hreply, ?_⟩
  ext k : 1
  by_cases hkc : k = key c.subject
  · subst hkc
    rw [get?_apply_of_ne _ _ _ hkeys, hc]
  · by_cases hkd : k = key d.subject
    · subst hkd
      rw [hd, get?_apply_of_ne _ _ _ hkeys.symm]
    · rw [get?_apply_of_ne _ _ _ hkd, get?_apply_of_ne _ _ _ hkc, get?_apply_of_ne _ _ _ hkc,
        get?_apply_of_ne _ _ _ hkd]

/-! ## Writing several buckets -/

theorem write_comm (h : s.name ≠ t.name) (st : Store) :
    write (write st s) t = write (write st t) s := by
  have hkeys : key s.name ≠ key t.name := fun hkey => h (key_injective hkey)
  ext k : 1
  by_cases hs : k = key s.name
  · subst hs
    rw [get?_write_of_ne hkeys, get?_write_self, get?_write_self]
  · by_cases ht : k = key t.name
    · subst ht
      rw [get?_write_self, get?_write_of_ne hs, get?_write_self]
    · rw [get?_write_of_ne ht, get?_write_of_ne hs, get?_write_of_ne hs, get?_write_of_ne ht]

/-- The store with the settings of several buckets written one after another. -/
def writeAll (st : Store) (buckets : List Settings) : Store := buckets.foldl write st

/-- Buckets of distinct names may be written in any order. -/
theorem writeAll_perm {as bs : List Settings} (h : as.Perm bs) (hnames : (as.map (·.name)).Nodup)
    (st : Store) : writeAll st as = writeAll st bs := by
  have hdistinct : ∀ s ∈ as, ∀ t ∈ as, s ≠ t → s.name ≠ t.name := by
    intro s hs t ht hne hname
    exact hne (List.inj_on_of_nodup_map hnames hs ht hname)
  refine h.foldl_eq' (fun s hs t ht st => ?_) st
  by_cases heq : s = t
  · rw [heq]
  · exact write_comm (hdistinct s hs t ht heq) st

theorem totalMb_perm {as bs : List Settings} (h : as.Perm bs) : totalMb as = totalMb bs := by
  induction h with
  | nil => rfl
  | cons s _ ih => simp only [totalMb, ih]
  | swap s t rest =>
    simp only [totalMb]
    omega
  | trans _ _ ih₁ ih₂ => exact ih₁.trans ih₂

/-- The buckets with several more put among them one after another. -/
def putAll (buckets more : List Settings) : List Settings :=
  more.foldl (fun buckets s => put s buckets) buckets

theorem Keeps.writeAll {buckets : List Settings} (h : Keeps st buckets) (more : List Settings) :
    Keeps (writeAll st more) (putAll buckets more) := by
  induction more generalizing st buckets with
  | nil => exact h
  | cons s rest ih => exact ih (h.write s)

theorem found_putAll_of_ne {more : List Settings} (h : ∀ s ∈ more, s.name ≠ n)
    (buckets : List Settings) : found (putAll buckets more) n = found buckets n := by
  induction more generalizing buckets with
  | nil => rfl
  | cons s rest ih =>
    obtain ⟨hs, hrest⟩ := List.forall_mem_cons.mp h
    rw [putAll, List.foldl_cons]
    exact (ih hrest _).trans ((found_put s buckets n).trans (if_neg hs))

theorem found_putAll_of_mem {more : List Settings} (hnames : (more.map (·.name)).Nodup)
    (hs : s ∈ more) (buckets : List Settings) : found (putAll buckets more) s.name = some s := by
  induction more generalizing buckets with
  | nil => cases hs
  | cons t rest ih =>
    obtain ⟨hfirst, hrest⟩ := List.nodup_cons.mp hnames
    rw [putAll, List.foldl_cons]
    rcases List.mem_cons.mp hs with rfl | hs
    · have hlater : ∀ u ∈ rest, u.name ≠ s.name := by
        intro u hu hname
        exact hfirst (List.mem_map.mpr ⟨u, hu, hname⟩)
      exact (found_putAll_of_ne hlater _).trans ((found_put s buckets s.name).trans (if_pos rfl))
    · exact ih hrest hs _

end Registry

namespace Server

open Api (Endpoint Response decodeSettings encodeSettings encodeBucketList)
open Bucket (Name Settings)
open Registry (Store Keeps Handle Change found put putAll totalMb unbounded writeAll)

variable {p : Profile} {sv : Server} {wanted order : List (Bytes × Settings)}
variable {buckets : List Settings} {body : Bytes} {s : Settings}

/-! ## Registering several buckets -/

/-- Bodies, each with the settings it is read as, that do not get in each other's way: the names are
distinct and none is taken, and the quotas all fit at once. -/
structure Independent (sv : Server) (wanted : List (Bytes × Settings)) : Prop where
  read : ∀ w ∈ wanted, decodeSettings w.1 = .ok w.2
  distinct : (wanted.map (·.2.name)).Nodup
  free : ∀ w ∈ wanted, Registry.get sv.store w.2.name = .ok none
  fits : ∃ used, Registry.quotaUsedMb sv.store = .ok used ∧
    used + totalMb (wanted.map (·.2)) ≤ sv.profile.ramTotalMb.toNat

/-- The requests that register the settings in bodies. -/
def registrations (wanted : List (Bytes × Settings)) : List (Endpoint × Bytes) :=
  wanted.map fun w => (.createBucket, w.1)

/-- Those requests, each answered with what is stored for its settings. -/
def registered (wanted : List (Bytes × Settings)) : List Exchange :=
  wanted.map fun w => ⟨.createBucket, w.1, ⟨.accepted, encodeSettings w.2.normal⟩⟩

namespace Independent

theorem perm (h : Independent sv wanted) (horder : order.Perm wanted) : Independent sv order where
  read w hw := h.read w (horder.mem_iff.mp hw)
  distinct := (horder.map _).nodup_iff.mpr h.distinct
  free w hw := h.free w (horder.mem_iff.mp hw)
  fits := by
    obtain ⟨used, hused, hfits⟩ := h.fits
    exact ⟨used, hused, Registry.totalMb_perm (horder.map _) ▸ hfits⟩

/-- The first of them is registered, and the others still do not get in each other's way. -/
theorem step (h : Independent sv ((body, s) :: wanted)) (hheld : Holds sv buckets) :
    let next : Server := { sv with store := Registry.write sv.store s.normal }
    sv.dispatch .createBucket body = (⟨.accepted, encodeSettings s.normal⟩, next) ∧
      Holds next (put s.normal buckets) ∧ Independent next wanted := by
  intro next
  have hbody : decodeSettings body = .ok s := h.read _ List.mem_cons_self
  have hs := Api.valid_of_decodeSettings hbody
  have hnew : found buckets s.name = none := by
    have hfree := h.free _ List.mem_cons_self
    rw [hheld.keeps.get] at hfree
    exact Except.ok.inj hfree
  have hnot : ¬(found buckets s.name).isSome := by simp [hnew]
  obtain ⟨used, hused, hfits⟩ := h.fits
  obtain rfl : totalMb buckets = used := by
    rw [hheld.keeps.quotaUsedMb hheld.total_lt] at hused
    exact Except.ok.inj hused
  simp only [List.map_cons, totalMb] at hfits
  have hfit : totalMb buckets + s.quotaMb.toNat ≤ sv.profile.ramTotalMb.toNat := by omega
  have hnext : Holds next (put s.normal buckets) := hheld.create hs hnot hfit
  refine ⟨hheld.dispatch_create hbody hnot hfit, hnext, ?_⟩
  obtain ⟨hfirst, hrest⟩ := List.nodup_cons.mp h.distinct
  have hsum := Registry.totalMb_put (s := s.normal) hheld.keeps.ordered
  rw [Settings.normal_name, Settings.normal_quotaMb, hnew] at hsum
  simp only [Registry.quotaOf, Option.elim_none, Nat.add_zero] at hsum
  refine ⟨fun w hw => h.read w (.tail _ hw), hrest, fun w hw => ?_, totalMb (put s.normal buckets),
    hnext.keeps.quotaUsedMb hnext.total_lt, ?_⟩
  · have hname : s.name ≠ w.2.name := fun he => hfirst (List.mem_map.mpr ⟨w, hw, he.symm⟩)
    have hfree := h.free w (.tail _ hw)
    rw [hheld.keeps.get] at hfree
    rw [hnext.keeps.get, Registry.found_put, Settings.normal_name, if_neg hname]
    exact hfree
  · change totalMb (put s.normal buckets) + _ ≤ sv.profile.ramTotalMb.toNat
    omega

/-- All of them are registered, one after another. -/
theorem serve (h : Independent sv wanted) (hheld : Holds sv buckets) :
    sv.serve (registrations wanted) = (registered wanted,
      { sv with store := writeAll sv.store (wanted.map (·.2.normal)) }) := by
  induction wanted generalizing sv buckets with
  | nil => rfl
  | cons w wanted ih =>
    obtain ⟨body, s⟩ := w
    obtain ⟨hdone, hnext, hrest⟩ := h.step hheld
    have hlater := ih hrest hnext
    simp only [registrations, List.map_cons, Server.serve, hdone] at hlater ⊢
    rw [hlater]
    rfl

end Independent

/-- **Independent operations commute.** Requests for new buckets that fit all at once are accepted
in every order, each with what is stored for its own settings; what is stored in the end is the
same, so the listing is too. Through a registry without a capacity, two changes of different buckets
are answered the same in either order, and leave the same store, whatever it holds. -/
theorem independent_commute :
    (∀ {p : Profile} {sv : Server} {wanted : List (Bytes × Settings)}, Reachable p sv →
      Independent sv wanted → ∃ buckets final, Registry.list sv.store = .ok buckets ∧
        (∀ order, order.Perm wanted →
          sv.serve (registrations order) = (registered order, final)) ∧
        (∀ w ∈ wanted, Registry.get final.store w.2.name = .ok (some w.2.normal)) ∧
        (∀ n, (∀ w ∈ wanted, w.2.name ≠ n) →
          Registry.get final.store n = Registry.get sv.store n) ∧
        ∀ body, final.dispatch .listBuckets body =
          (⟨.ok, encodeBucketList (putAll buckets (wanted.map (·.2.normal)))⟩, final)) ∧
    ∀ (st : Store) (c d : Change), c.subject ≠ d.subject →
      unbounded.reply (unbounded.apply st d) c = unbounded.reply st c ∧
      unbounded.reply (unbounded.apply st c) d = unbounded.reply st d ∧
      unbounded.apply (unbounded.apply st c) d = unbounded.apply (unbounded.apply st d) c := by
  constructor
  · intro p sv wanted hreach h
    obtain ⟨-, buckets, hheld⟩ := hreach.holds
    have hnames : ((wanted.map (·.2.normal)).map (·.name)).Nodup := by
      simpa [Function.comp_def] using h.distinct
    have hkeeps := hheld.keeps.writeAll (wanted.map (·.2.normal))
    refine ⟨buckets, { sv with store := writeAll sv.store (wanted.map (·.2.normal)) },
      hheld.keeps.list, fun order horder => ?_, fun w hw => ?_, fun n hn => ?_,
      dispatch_listBuckets hkeeps⟩
    · have hsame := Registry.writeAll_perm (horder.symm.map (·.2.normal)) hnames sv.store
      rw [(h.perm horder).serve hheld, hsame]
    · have hfound := Registry.found_putAll_of_mem hnames (List.mem_map_of_mem hw) buckets
      rw [hkeeps.get, ← Settings.normal_name, hfound]
    · have hothers : ∀ s ∈ wanted.map (·.2.normal), s.name ≠ n := by
        intro s hs
        obtain ⟨w, hw, rfl⟩ := List.mem_map.mp hs
        rw [Settings.normal_name]
        exact hn w hw
      rw [hkeeps.get, hheld.keeps.get, Registry.found_putAll_of_ne hothers]
  · intro st c d hne
    obtain ⟨hd, hstore⟩ := Registry.apply_comm hne st
    obtain ⟨hc, -⟩ := Registry.apply_comm hne.symm st
    exact ⟨hc, hd, hstore⟩

/-- A node with a bucket that takes half its memory. -/
def halfNode : Server :=
  let half : Settings := { Settings.blank ⟨"half", by decide, by decide, by decide⟩ with
    quotaMb := 2048 }
  ((start {}).dispatch .createBucket (encodeSettings half)).2

/-- Two buckets that take the other half. The body of one is a list, and the other one is a cache
that is not stored as it is sent. -/
def halves : List (Bytes × Settings) :=
  let left : Settings := { Settings.blank ⟨"left", by decide, by decide, by decide⟩ with
    kind := .memcached, quotaMb := 1000, replicas := 1 }
  let right : Settings := { Settings.blank ⟨"right", by decide, by decide, by decide⟩ with
    kind := .ephemeral, quotaMb := 1048, replicas := 2 }
  [(encodeSettings left, left), (Utf8.encode "[\"right\",\"ephemeral\",1048,2]", right)]

theorem independent_halves : Independent halfNode halves where
  read := by decide +kernel
  distinct := by decide
  free := by decide +kernel
  fits := ⟨2048, by decide +kernel, by decide +kernel⟩

theorem independent_commute_halves :
    (∃ final, halfNode.serve (registrations halves) = (registered halves, final) ∧
      halfNode.serve (registrations halves.reverse) = (registered halves.reverse, final)) ∧
    let st := Registry.run .empty Registry.overflowing
    let removal := Change.remove Registry.hugeBucket.name
    let change := Change.update { Registry.smallBucket with port := 11211 }
    unbounded.reply (unbounded.apply st removal) change = unbounded.reply st change ∧
      unbounded.apply (unbounded.apply st removal) change =
        unbounded.apply (unbounded.apply st change) removal := by
  obtain ⟨hrequests, hchanges⟩ := independent_commute
  have hreach : Reachable {} halfNode := .dispatch .start .createBucket _
  constructor
  · obtain ⟨-, final, -, hserve, -⟩ := hrequests hreach independent_halves
    exact ⟨final, hserve _ (.refl _), hserve _ (List.reverse_perm _)⟩
  · intro st removal change
    obtain ⟨-, hreply, hstore⟩ := hchanges st removal change (by decide)
    exact ⟨hreply, hstore⟩

end Server

end BucketAdmin
