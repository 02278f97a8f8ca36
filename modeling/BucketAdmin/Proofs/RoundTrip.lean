import BucketAdmin.Proofs.Documents

/-!
# Bodies read back

Reading a body undoes writing it, for settings, lists of settings, snapshots and error messages,
as long as the body is no larger than the limit; a larger one is refused with its length. The
records of the registry have no limit.
-/

namespace BucketAdmin.Api

open Bucket (Name Settings Document)
open Cluster (Info)
open Json (ReadsBack)

/-- What the reader of a body that carries `a` gives: `a` itself, unless the body is too large. -/
def withinLimit {α : Type} (body : Bytes) (a : α) : Except Fault α :=
  if body.length ≤ maxBodySize then .ok a else .error (.bodyTooLarge body.length)

theorem withinLimit_of_le {α : Type} {body : Bytes} {a : α} (h : body.length ≤ maxBodySize) :
    withinLimit body a = .ok a :=
  if_pos h

theorem readBody_render {α : Type} {reader : Json.Reader α} {v : Json.Value} {a : α}
    (hback : ReadsBack v) (hread : reader v = .ok a) :
    readBody reader v.render = withinLimit v.render a := by
  unfold readBody withinLimit
  by_cases h : v.render.length ≤ maxBodySize
  · rw [if_neg (Nat.not_lt.mpr h), if_pos h, Json.read_render hback, hread, mapError_ok]
  · rw [if_pos (Nat.lt_of_not_le h), if_neg h]

theorem withinLimit_bind {α β : Type} (body : Bytes) (a : α) (f : α → Except Fault β) {b : β}
    (h : f a = .ok b) : (withinLimit body a >>= f) = withinLimit body b := by
  unfold withinLimit
  split
  · exact h
  · rfl

theorem settingsOf_ofSettings {s : Settings} (h : s.Valid) :
    settingsOf (Document.ofSettings s) = .ok s := by
  rw [settingsOf, Document.toSettings_ofSettings h, mapError_ok]

/-- A body is read as the document that was written, before any bounds are checked. -/
theorem readBody_encodeSettings (s : Settings) :
    readBody Document.reader (encodeSettings s) = withinLimit (encodeSettings s) (.ofSettings s) :=
  readBody_render (Document.readsBack_json _) (Document.reader_json _)

theorem decodeSettings_encodeSettings {s : Settings} (h : s.Valid) :
    decodeSettings (encodeSettings s) = withinLimit (encodeSettings s) s := by
  rw [decodeSettings, readBody_encodeSettings]
  exact withinLimit_bind _ _ _ (settingsOf_ofSettings h)

theorem decodeSettings_of_le {s : Settings} (hs : s.Valid)
    (h : (encodeSettings s).length ≤ maxBodySize) : decodeSettings (encodeSettings s) = .ok s := by
  rw [decodeSettings_encodeSettings hs, withinLimit_of_le h]

theorem decodeSettings_of_not_le {s : Settings} (hs : s.Valid)
    (h : ¬(encodeSettings s).length ≤ maxBodySize) :
    decodeSettings (encodeSettings s) = .error (.bodyTooLarge (encodeSettings s).length) := by
  rw [decodeSettings_encodeSettings hs, withinLimit, if_neg h]

/-- Settings read from a body are within bounds. -/
theorem valid_of_decodeSettings {body : Bytes} {s : Settings} (h : decodeSettings body = .ok s) :
    s.Valid := by
  obtain ⟨d, -, h⟩ := bind_eq_ok.mp h
  obtain ⟨n, -, h⟩ := bind_eq_ok.mp (mapError_eq_ok.mp h)
  obtain ⟨hvalid, rfl⟩ := Settings.validate_eq_ok_iff.mp (mapError_eq_ok.mp h)
  exact hvalid

/-- A body that carries settings reads as no others. -/
theorem eq_of_decodeSettings_encodeSettings {s t : Settings}
    (h : decodeSettings (encodeSettings s) = .ok t) : t = s := by
  rw [decodeSettings, readBody_encodeSettings] at h
  obtain ⟨d, hd, hsettings⟩ := bind_eq_ok.mp h
  unfold withinLimit at hd
  split at hd
  · cases hd
    obtain ⟨n, hname, hvalid⟩ := bind_eq_ok.mp (mapError_eq_ok.mp hsettings)
    have hn : n = s.name := by
      rw [Document.ofSettings, Name.ofString_text, mapError_ok] at hname
      exact (Except.ok.inj hname).symm
    obtain ⟨-, rfl⟩ := Settings.validate_eq_ok_iff.mp (mapError_eq_ok.mp hvalid)
    rw [hn]
    rfl
  · cases hd

theorem readBody_encodeBucketList (buckets : List Settings) :
    readBody (Json.Value.list Document.reader) (encodeBucketList buckets) =
      withinLimit (encodeBucketList buckets) (buckets.map Document.ofSettings) := by
  have hback : ReadsBack (.ofList (buckets.map fun s => (Document.ofSettings s).json)) := by
    refine Json.readsBack_ofList fun v hv => ?_
    obtain ⟨s, -, rfl⟩ := List.mem_map.mp hv
    exact Document.readsBack_json _
  have hread : Json.Value.list Document.reader
      (.ofList (buckets.map fun s => (Document.ofSettings s).json)) =
        .ok (buckets.map Document.ofSettings) := by
    have hlist : Json.Value.list Document.reader
        (.ofList ((buckets.map Document.ofSettings).map Document.json)) =
          .ok (buckets.map Document.ofSettings) :=
      Json.Value.list_ofList fun d _ => d.reader_json
    rwa [List.map_map] at hlist
  exact readBody_render hback hread

theorem decodeBucketList_encodeBucketList {buckets : List Settings} (h : ∀ s ∈ buckets, s.Valid) :
    decodeBucketList (encodeBucketList buckets) =
      withinLimit (encodeBucketList buckets) buckets := by
  have hsettings : (buckets.map Document.ofSettings).mapM settingsOf = .ok buckets :=
    mapM_map_eq_ok fun s hs => settingsOf_ofSettings (h s hs)
  rw [decodeBucketList, readBody_encodeBucketList]
  exact withinLimit_bind _ _ _ hsettings

theorem decodeInfo_encodeInfo (i : Info) :
    decodeInfo (encodeInfo i) = withinLimit (encodeInfo i) i :=
  readBody_render i.readsBack_json i.reader_json

theorem decodeError?_encodeError (message : String) :
    decodeError? (encodeError message) =
      if (encodeError message).length ≤ maxBodySize then some message else none := by
  rw [decodeError?, encodeError, readBody_render (readsBack_error _) (errorReader_json _)]
  unfold withinLimit
  split <;> rfl

/-- **Reading undoes writing in every format.** Bodies read back exactly when they are within the
limit, records of the registry always. -/
theorem decode_encode :
    (∀ s : Settings, s.Valid →
      decodeSettings (encodeSettings s) = withinLimit (encodeSettings s) s) ∧
    (∀ buckets : List Settings, (∀ s ∈ buckets, s.Valid) →
      decodeBucketList (encodeBucketList buckets) =
        withinLimit (encodeBucketList buckets) buckets) ∧
    (∀ i : Info, decodeInfo (encodeInfo i) = withinLimit (encodeInfo i) i) ∧
    (∀ message : String, decodeError? (encodeError message) =
      if (encodeError message).length ≤ maxBodySize then some message else none) ∧
    ∀ s : Settings, Settings.ofRecord s.toRecord = .ok s :=
  ⟨fun _ => decodeSettings_encodeSettings, fun _ => decodeBucketList_encodeBucketList,
    decodeInfo_encodeInfo, decodeError?_encodeError, Settings.ofRecord_toRecord⟩

/-- Settings with a password that needs escapes, as large as the memory of a node by default. A
server does not store them as they are. -/
def sampleSettings : Settings where
  name := ⟨"c%-_.1", by decide, by decide, by decide⟩
  kind := .memcached
  quotaMb := 4096
  port := 11211
  password := "\"\\/\n\t\x01é😀"
  replicas := 3
  indexReplicas := true
  flushEnabled := true

theorem valid_sampleSettings : sampleSettings.Valid := ⟨by decide, by decide⟩

theorem decode_encode_sampleSettings :
    decodeSettings (encodeSettings sampleSettings) = .ok sampleSettings ∧
    decodeBucketList (encodeBucketList [sampleSettings, sampleSettings]) =
      .ok [sampleSettings, sampleSettings] ∧
    Settings.ofRecord sampleSettings.toRecord = .ok sampleSettings := by
  have hvalid := valid_sampleSettings
  have hone : (encodeSettings sampleSettings).length ≤ maxBodySize := by decide +kernel
  have htwo : (encodeBucketList [sampleSettings, sampleSettings]).length ≤ maxBodySize := by
    decide +kernel
  obtain ⟨hsettings, hlist, -, -, hrecord⟩ := decode_encode
  refine ⟨?_, ?_, hrecord _⟩
  · rw [hsettings _ hvalid, withinLimit_of_le hone]
  · rw [hlist _ (by simp [hvalid]), withinLimit_of_le htwo]

end BucketAdmin.Api
