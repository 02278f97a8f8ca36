import BucketAdmin.Proofs.Api.Listing
import BucketAdmin.Proofs.Registry.Undo
import BucketAdmin.Proofs.RoundTrip

/-!
# Settings out of bounds

Three ways lead to settings. Those that are built or read from a body keep the bounds of the quota
and of the replicas (`validate_eq_ok_iff`, `valid_of_decodeSettings`). The stored form is read with
its name checked and nothing else: any settings have a record, as a map and as a list, that gives
them back as they are (`ofRecord_toRecord`, `ofRecord_listed`).

What becomes of settings out of bounds follows from who checks. A body that carries them is refused
by its reader with the fault that building them would meet (`decodeSettings_encodeSettings_eq`), and
a listing is refused for the first of them (`decodeBucketList_encodeBucketList_eq`). A registry
checks caches alone. Anything else it stores as it was sent, whatever its bounds
(`Keeps.insert_unchecked`), and nothing out of bounds is there that was not sent so
(`Keeps.run_outOfBounds`).
-/

namespace BucketAdmin

namespace Bucket.Settings

open Json

variable {s t : Settings} {f : SettingsFault}

/-! ## The bounds -/

/-- The first bound that the settings do not keep. -/
inductive Breaks (s : Settings) : SettingsFault → Prop
  | quota (h : s.quotaMb < minQuotaMb) : Breaks s (.quotaTooSmall s.quotaMb)
  | replicas (hquota : minQuotaMb ≤ s.quotaMb) (h : maxReplicas < s.replicas) :
      Breaks s (.tooManyReplicas s.replicas)

theorem validate_eq_error_iff : s.validate = .error f ↔ s.Breaks f := by
  unfold validate
  constructor
  · intro h
    split at h
    · next hquota =>
      cases h
      exact .quota hquota
    · next hquota =>
      split at h
      · next hreplicas =>
        cases h
        exact .replicas (UInt64.not_lt.mp hquota) hreplicas
      · cases h
  · rintro (hquota | ⟨hquota, hreplicas⟩)
    · rw [if_pos hquota]
    · rw [if_neg (UInt64.not_lt.mpr hquota), if_pos hreplicas]

theorem validate_eq_self_iff : s.validate = .ok s ↔ s.Valid := by
  rw [validate_eq_ok_iff, and_iff_left rfl]

/-! ## The stored form as a list -/

/-- The stored form without the names of its fields. -/
def listed (s : Settings) : Value :=
  .ofList [.ofText s.name.text, .ofText s.kind.text, .ofNat s.quotaMb.toNat, .ofNat s.port.toNat,
    .ofText s.password, .ofNat s.replicas.toNat, .bool s.indexReplicas, .bool s.flushEnabled]

theorem readsBack_listed (s : Settings) : ReadsBack s.listed := by
  refine readsBack_ofList ?_
  simp only [List.forall_mem_cons]
  exact ⟨reads_ofText _, reads_ofText _, reads_ofNat _, reads_ofNat _, reads_ofText _,
    reads_ofNat _, reads_bool _, reads_bool _, List.forall_mem_nil _⟩

theorem ofStored_listed (s : Settings) : ofStored s.listed = .ok s := by
  rw [ofStored, listed, Value.ofList, Record.read, Record.readItems_zip]
  · simp [storedLayout, Field.required, Record.Slots.get, List.lookup_cons]
  · exact .cons (Field.check_required (Name.reader_ofText _)) <|
      .cons (Field.check_required (Kind.reader_ofText _)) <|
      .cons (Field.check_required (Value.uint64_ofNat _)) <|
      .cons (Field.check_required (Value.uint16_ofNat _)) <|
      .cons (Field.check_required (Value.text_ofText _)) <|
      .cons (Field.check_required (Value.uint8_ofNat _)) <|
      .cons (Field.check_required (Value.flag_bool _)) <|
      .cons (Field.check_required (Value.flag_bool _)) .nil
  · exact List.forall_mem_nil _

/-- The list gives the settings back as the map does, whatever their bounds. -/
theorem ofRecord_listed (s : Settings) : ofRecord s.listed.render = .ok s := by
  rw [ofRecord, read_render s.readsBack_listed, ofStored_listed]

/-! ## What a server makes of settings -/

theorem normalize_of_kind_ne (h : s.kind ≠ .memcached) : s.normalize = .ok s := by
  unfold normalize
  split
  · next hk => exact absurd hk h
  · rfl
  · rfl

/-- What comes out of bounds went in so, and is no cache. -/
theorem eq_of_normalize (h : s.normalize = .ok t) (hvalid : ¬t.Valid) :
    t = s ∧ s.kind ≠ .memcached := by
  have hkind : s.kind ≠ .memcached := by
    intro hk
    simp only [normalize, hk] at h
    obtain ⟨hquota, rfl⟩ := validate_eq_ok_iff.mp h
    exact hvalid hquota
  rw [normalize_of_kind_ne hkind] at h
  exact ⟨(Except.ok.inj h).symm, hkind⟩

end Bucket.Settings

namespace Api

open Bucket (Name Settings Document SettingsFault)

variable {s : Settings} {buckets : List Settings}

/-! ## Bodies -/

/-- The fault of a body whose settings are out of bounds. -/
def boundsFault (f : SettingsFault) : Fault := .malformedBody (.document (.settings f))

theorem boundsFault_inj {f g : SettingsFault} : boundsFault f = boundsFault g ↔ f = g := by
  simp [boundsFault]

theorem settingsOf_ofSettings_eq (s : Settings) :
    settingsOf (Document.ofSettings s) = s.validate.mapError boundsFault := by
  have hdocument : (Document.ofSettings s).toSettings = s.validate.mapError .settings := by
    simp [Document.toSettings, Document.ofSettings, Name.ofString_text]
  rw [settingsOf, hdocument]
  cases s.validate <;> rfl

/-- Settings come back from their body as they would be built. -/
theorem decodeSettings_encodeSettings_eq (h : (encodeSettings s).length ≤ maxBodySize) :
    decodeSettings (encodeSettings s) = s.validate.mapError boundsFault := by
  rw [decodeSettings, readBody_encodeSettings, withinLimit_of_le h, ok_bind,
    settingsOf_ofSettings_eq]

theorem decodeBucketList_encodeBucketList_eq
    (h : (encodeBucketList buckets).length ≤ maxBodySize) :
    decodeBucketList (encodeBucketList buckets) =
      buckets.mapM fun s => s.validate.mapError boundsFault := by
  rw [decodeBucketList, readBody_encodeBucketList, withinLimit_of_le h, ok_bind, List.mapM_map]
  exact mapM_congr fun s _ => settingsOf_ofSettings_eq s

/-- A listing is read just if all of it is within bounds. -/
theorem decodeBucketList_eq_ok_iff (h : (encodeBucketList buckets).length ≤ maxBodySize) :
    decodeBucketList (encodeBucketList buckets) = .ok buckets ↔ ∀ s ∈ buckets, s.Valid := by
  rw [decodeBucketList_encodeBucketList_eq h, Json.mapM_eq_ok_iff, List.forall₂_same]
  simp only [mapError_eq_ok, Settings.validate_eq_self_iff]

/-- The first bucket out of bounds decides. -/
theorem decodeBucketList_of_breaks {before after : List Settings} {f : SettingsFault}
    (hbefore : ∀ t ∈ before, t.Valid) (hs : s.Breaks f)
    (h : (encodeBucketList (before ++ s :: after)).length ≤ maxBodySize) :
    decodeBucketList (encodeBucketList (before ++ s :: after)) = .error (boundsFault f) := by
  rw [decodeBucketList_encodeBucketList_eq h]
  refine mapM_eq_error (fun t ht => ⟨t, ?_⟩) ?_
  · rw [Settings.validate_eq_self_iff.mpr (hbefore t ht), mapError_ok]
  · rw [Settings.validate_eq_error_iff.mpr hs, mapError_error]

end Api

namespace Registry

open Bucket (Name Settings SettingsFault)
open Api (encodeSettings decodeSettings encodeBucketList decodeBucketList maxBodySize boundsFault)

variable {st : Store} {buckets : List Settings} {s : Settings}

/-! ## Stores -/

namespace Keeps

/-- What a change leaves out of bounds was so before, or was sent so. -/
theorem apply_outOfBounds (h : Keeps st buckets) (handle : Handle) (c : Change) :
    ∃ after, Keeps (handle.apply st c) after ∧
      ∀ s ∈ after, ¬s.Valid → s ∈ buckets ∨ (s.kind ≠ .memcached ∧ c.sent = some s) := by
  rcases apply_sent handle st c with happly | ⟨s, t, hsent, hnormal, happly⟩ | happly
  · rw [happly]
    exact ⟨buckets, h, fun s hs _ => .inl hs⟩
  · rw [happly]
    refine ⟨put t buckets, h.write t, fun u hu hvalid => ?_⟩
    rcases mem_put hu with rfl | hu
    · obtain ⟨rfl, hkind⟩ := Settings.eq_of_normalize (mapError_eq_ok.mp hnormal) hvalid
      exact .inr ⟨hkind, hsent⟩
    · exact .inl hu
  · rw [happly]
    exact ⟨without c.subject buckets, h.erase c.subject,
      fun s hs _ => .inl (List.mem_filter.mp hs).1⟩

/-- After any changes, what is out of bounds was so before, or was sent so. -/
theorem run_outOfBounds (h : Keeps st buckets) (steps : List (Handle × Change)) :
    ∃ after, Keeps (Registry.run st steps) after ∧
      ∀ s ∈ after, ¬s.Valid →
        s ∈ buckets ∨ (s.kind ≠ .memcached ∧ ∃ step ∈ steps, step.2.sent = some s) := by
  induction steps generalizing st buckets with
  | nil => exact ⟨buckets, h, fun s hs _ => .inl hs⟩
  | cons step rest ih =>
    obtain ⟨between, hbetween, horigin⟩ := h.apply_outOfBounds step.1 step.2
    obtain ⟨after, hafter, hsent⟩ := ih hbetween
    refine ⟨after, hafter, fun s hs hvalid => ?_⟩
    rcases hsent s hs hvalid with hs | ⟨hkind, later, hlater, hsent⟩
    · rcases horigin s hs hvalid with hs | ⟨hkind, hsent⟩
      · exact .inl hs
      · exact .inr ⟨hkind, step, List.mem_cons_self, hsent⟩
    · exact .inr ⟨hkind, later, List.mem_cons_of_mem _ hlater, hsent⟩

/-- A new bucket that is no cache is stored as it was sent, whatever its bounds, where its quota
is admitted. -/
theorem insert_unchecked (h : Keeps st buckets) (hnew : found buckets s.name = none)
    (hkind : s.kind ≠ .memcached) {handle : Handle}
    (hadmits : handle.Admits (totalMb buckets + s.quotaMb.toNat)) :
    Registry.insert handle.capacityMb st s = .ok (s, Registry.write st s) := by
  have hcheck : Registry.checkCapacity handle.capacityMb st s 0 = .ok () := by
    refine (h.checkCapacity_eq_ok_iff ..).mpr fun capacity hc => ?_
    have hle := hadmits capacity hc
    have hsize := capacity.toNat_lt_size
    omega
  rw [Registry.insert, h.get, hnew, ok_bind, normalize, Settings.normalize_of_kind_ne hkind]
  simp only [Option.isSome_none, Bool.false_eq_true, if_false, mapError_ok, ok_bind, hcheck]

end Keeps

/-- **The stored form lets any settings in, and only their readers stop those out of bounds.**
Whatever the bounds of `s`, there are records that give `s` back, as a map and as a list. To build
`s` or to read it from its body succeeds just if it is within bounds, and fails for the first bound
that it breaks. In any store that changes through any registries lead to, what is out of bounds was
sent so and is no cache, and the listing is read just if there is no such bucket, and refused for
the first of them otherwise. And a registry takes `s` as it is, unless it is a cache, where its name
is free and its quota admitted. -/
theorem out_of_bounds_stored (s : Settings) (steps : List (Handle × Change)) :
    (Settings.ofRecord s.toRecord = .ok s ∧ Settings.ofRecord s.listed.render = .ok s ∧
      Name.ofString s.name.text = .ok s.name) ∧
    ((s.validate = .ok s ↔ s.Valid) ∧ ∀ f, s.validate = .error f ↔ s.Breaks f) ∧
    (∀ body, decodeSettings body = .ok s → s.Valid) ∧
    ((encodeSettings s).length ≤ maxBodySize →
      (decodeSettings (encodeSettings s) = .ok s ↔ s.Valid) ∧
      ∀ f, decodeSettings (encodeSettings s) = .error (boundsFault f) ↔ s.Breaks f) ∧
    ∃ buckets, list (run .empty steps) = .ok buckets ∧
      (∀ t ∈ buckets, ¬t.Valid →
        t.kind ≠ .memcached ∧ ∃ step ∈ steps, step.2.sent = some t) ∧
      ((encodeBucketList buckets).length ≤ maxBodySize →
        (decodeBucketList (encodeBucketList buckets) = .ok buckets ↔ ∀ t ∈ buckets, t.Valid) ∧
        ∀ before t after f, buckets = before ++ t :: after → (∀ u ∈ before, u.Valid) →
          t.Breaks f → decodeBucketList (encodeBucketList buckets) = .error (boundsFault f)) ∧
      (∀ handle : Handle, get (run .empty steps) s.name = .ok none → s.kind ≠ .memcached →
        handle.Admits (totalMb buckets + s.quotaMb.toNat) →
        ∃ st after, insert handle.capacityMb (run .empty steps) s = .ok (s, st) ∧
          list st = .ok after ∧ s ∈ after) := by
  obtain ⟨buckets, hkeeps, horigin⟩ := keeps_empty.run_outOfBounds steps
  refine ⟨⟨s.ofRecord_toRecord, s.ofRecord_listed, s.name.ofString_text⟩,
    ⟨Settings.validate_eq_self_iff, fun f => Settings.validate_eq_error_iff⟩,
    fun body => Api.valid_of_decodeSettings, fun hsize => ?body, buckets, hkeeps.list, ?stored,
    fun hsize => ⟨?listing, ?first⟩, ?inserted⟩
  case body =>
    rw [Api.decodeSettings_encodeSettings_eq hsize]
    refine ⟨mapError_eq_ok.trans Settings.validate_eq_self_iff, fun f => ?_⟩
    rw [← Settings.validate_eq_error_iff, mapError_eq_error]
    simp only [Api.boundsFault_inj, exists_eq_right]
  case stored =>
    intro t ht hvalid
    exact (horigin t ht hvalid).resolve_left List.not_mem_nil
  case listing =>
    exact Api.decodeBucketList_eq_ok_iff hsize
  case first =>
    rintro before t after f rfl hbefore ht
    exact Api.decodeBucketList_of_breaks hbefore ht hsize
  case inserted =>
    intro handle hget hkind hadmits
    have hnew : found buckets s.name = none := by
      rw [hkeeps.get] at hget
      exact Except.ok.inj hget
    have hfound : found (put s buckets) s.name = some s := by rw [found_put, if_pos rfl]
    exact ⟨_, _, hkeeps.insert_unchecked hnew hkind hadmits, (hkeeps.write s).list,
      mem_of_found hfound⟩

/-- A bucket with less than the least quota. -/
def undersized : Settings :=
  { Settings.blank ⟨"under", by decide, by decide, by decide⟩ with quotaMb := 1 }

/-- A bucket with one replica too many. -/
def scattered : Settings :=
  { Settings.blank ⟨"many", by decide, by decide, by decide⟩ with
    kind := .ephemeral
    replicas := 4 }

/-- A registry of 300 megabytes with a small bucket takes one that is undersized, and the listing of
both is refused for it. -/
theorem out_of_bounds_stored_undersized :
    let steps := [((⟨some 300⟩ : Handle), Change.insert smallBucket)]
    let after := steps ++ [(⟨some 300⟩, .insert undersized)]
    smallBucket.Valid ∧
    decodeSettings (encodeSettings undersized) = .error (boundsFault (.quotaTooSmall 1)) ∧
    (∃ st buckets, insert (some 300) (run .empty steps) undersized = .ok (undersized, st) ∧
      list st = .ok buckets ∧ undersized ∈ buckets) ∧
    (∃ step ∈ after, step.2.sent = some undersized) ∧
    decodeBucketList (encodeBucketList [smallBucket, undersized]) =
      .error (boundsFault (.quotaTooSmall 1)) := by
  intro steps after
  obtain ⟨-, -, hvalid, -⟩ := out_of_bounds_stored smallBucket steps
  obtain ⟨-, -, -, hbody, buckets, hlist, -, -, hinserted⟩ := out_of_bounds_stored undersized steps
  obtain ⟨-, -, -, -, listed, hlisted, horigin, hlisting, -⟩ :=
    out_of_bounds_stored undersized after
  have hsmall : smallBucket.Valid := hvalid (encodeSettings smallBucket) (by decide +kernel)
  have hunder : undersized.Breaks (.quotaTooSmall 1) := .quota (by decide)
  have hone : list (run .empty steps) = .ok [smallBucket] := by decide +kernel
  have htwo : list (run .empty after) = .ok [smallBucket, undersized] := by decide +kernel
  obtain rfl : [smallBucket] = buckets := Except.ok.inj (hone.symm.trans hlist)
  obtain rfl : [smallBucket, undersized] = listed := Except.ok.inj (htwo.symm.trans hlisted)
  refine ⟨hsmall, ?_, ?_, ?_, ?_⟩
  · obtain ⟨-, hfault⟩ := hbody (by decide +kernel)
    exact (hfault _).mpr hunder
  · exact hinserted ⟨some 300⟩ (by decide +kernel) (by decide) (by rintro capacity ⟨⟩; decide)
  · have hbroken : ¬undersized.Valid := fun h => absurd h.quota (by decide)
    exact (horigin undersized (by decide) hbroken).2
  · obtain ⟨-, hfirst⟩ := hlisting (by decide +kernel)
    exact hfirst [smallBucket] undersized [] _ rfl (List.forall_mem_singleton.mpr hsmall) hunder

/-- A record of the undersized bucket, as a map. -/
def undersizedText : String :=
  "\x7b\"name\":\"under\",\"bucket_type\":\"couchbase\",\"quota_mb\":1,\"port\":0," ++
    "\"password\":\"\",\"replicas\":0,\"index_replicas\":false,\"flush_enabled\":false\x7d"

/-- A record of the bucket with too many replicas, as a list. -/
def scatteredText : String := "[\"many\",\"ephemeral\",100,0,\"\",4,false,false]"

/-- Both records are read, and neither has settings that could be built. The first is taken by a
registry that has nothing else, and neither its body nor the listing can be read from then on. -/
theorem bounds_bypassed :
    Settings.ofRecord (Utf8.encode undersizedText) = .ok undersized ∧
    undersized.validate = .error (.quotaTooSmall 1) ∧
    Settings.ofRecord (Utf8.encode scatteredText) = .ok scattered ∧
    scattered.validate = .error (.tooManyReplicas 4) ∧
    (encodeSettings undersized).length ≤ maxBodySize ∧
    decodeSettings (encodeSettings undersized) = .error (boundsFault (.quotaTooSmall 1)) ∧
    insert none .empty undersized = .ok (undersized, write .empty undersized) ∧
    list (write .empty undersized) = .ok [undersized] ∧
    decodeBucketList (encodeBucketList [undersized]) =
      .error (boundsFault (.quotaTooSmall 1)) := by
  refine ⟨?_, ?_, ?_, ?_, ?_, ?_, ?_, ?_, ?_⟩ <;> decide +kernel

end Registry

end BucketAdmin
