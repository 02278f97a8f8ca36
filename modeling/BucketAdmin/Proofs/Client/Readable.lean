import BucketAdmin.Proofs.Api.Size
import BucketAdmin.Proofs.Client.Refinement
import BucketAdmin.Proofs.Json.Extent
import BucketAdmin.Proofs.Server.Frame

/-!
# What a client can read of an answer

A server reads bodies up to a limit and writes bodies without one; a client refuses those over the
limit. So what a server accepted it shows to no client once it takes too many bytes to write.

For one bucket this happens only close to the limit. Its settings are the ones sent, each written
anew, and all but the password are bounded, while the password takes no more bytes than it took in
the body that was sent (`length_encodeSettings_le_body`). So a body that stays `maxBesidePassword`
below the limit is always answered legibly, and a client that writes its bodies as the server does
loses one byte at most (`applied_shown`). A listing has no such margin: it is read exactly when its
buckets together are within the limit (`reachable_listed`).
-/

namespace BucketAdmin.Client

open Api (Endpoint Response Fault decodeSettings encodeSettings decodeBucketList encodeBucketList
  maxBodySize withinLimit)
open Bucket (Name Settings Document)
open Json (quote)
open Registry (found put Keeps)

/-! ## The size of what is stored -/

/-- The password of a document takes no more bytes to write than the whole document has. -/
theorem length_quote_password_le {body : Bytes} {d : Document}
    (h : Json.read Document.reader body = .ok d) : (quote d.password).length ≤ body.length := by
  have hshort := Json.Value.short_parse body
  unfold Json.read at h
  generalize Json.parse body = parsed at h hshort
  obtain ⟨v, clean⟩ := parsed
  obtain ⟨d', hread, h⟩ := bind_eq_ok.mp h
  obtain rfl : d' = d := by
    split at h
    · exact Except.ok.inj h
    · cases h
  obtain ⟨slots, hslots, h⟩ := bind_eq_ok.mp hread
  have hslots := Json.Record.short_read hshort hslots
  obtain ⟨name, -, h⟩ := bind_eq_ok.mp h
  obtain ⟨kind, -, h⟩ := bind_eq_ok.mp h
  obtain ⟨quota, -, h⟩ := bind_eq_ok.mp h
  obtain ⟨replicas, -, h⟩ := bind_eq_ok.mp h
  obtain ⟨index, -, h⟩ := bind_eq_ok.mp h
  obtain ⟨auth, -, h⟩ := bind_eq_ok.mp h
  obtain ⟨password, hpassword, h⟩ := bind_eq_ok.mp h
  obtain ⟨port, -, h⟩ := bind_eq_ok.mp h
  obtain ⟨flush, -, h⟩ := bind_eq_ok.mp h
  cases h
  rcases Json.Record.length_quote_getD hslots hpassword with rfl | hle
  · exact Nat.zero_le _
  · exact hle

/-- Settings that were read from a body take little more than the body to write. -/
theorem length_encodeSettings_le_body {body : Bytes} {s : Settings}
    (h : decodeSettings body = .ok s) :
    (encodeSettings s.normal).length ≤ body.length + Api.maxBesidePassword := by
  have hvalid := (Api.valid_of_decodeSettings h).storable_normal.valid
  have hle := Api.length_encodeSettings_le hvalid
  obtain ⟨d, hd, hsettings⟩ := bind_eq_ok.mp h
  have hread : Json.read Document.reader body = .ok d := by
    unfold Api.readBody at hd
    split at hd
    · cases hd
    · exact mapError_eq_ok.mp hd
  have hpassword : s.normal.password = d.password := by
    obtain ⟨n, -, hsettings⟩ := bind_eq_ok.mp (mapError_eq_ok.mp hsettings)
    obtain ⟨-, rfl⟩ := Settings.validate_eq_ok_iff.mp (mapError_eq_ok.mp hsettings)
    unfold Settings.normal
    split <;> rfl
  have hquote := length_quote_password_le hread
  rw [hpassword] at hle
  omega

variable {p : Server.Profile} {sv : Server} {buckets : List Settings} {e : Endpoint} {body : Bytes}

/-! ## What a server writes -/

/-- A request that is accepted carries settings, which are stored, and shown as they are stored. -/
theorem dispatch_accepted (h : sv.Holds buckets)
    (haccepted : (sv.dispatch e body).1.status = .accepted) :
    ∃ s, decodeSettings body = .ok s ∧ (e = .createBucket ∨ e = .updateBucket s.name) ∧
      (sv.dispatch e body).1 = ⟨.accepted, encodeSettings s.normal⟩ ∧
      (sv.dispatch e body).2.Holds (put s.normal buckets) := by
  cases hperform : sv.perform e body with
  | error rejection =>
    rw [Server.dispatch_error hperform] at haccepted
    exact absurd haccepted (rejection.status_ne rfl)
  | ok result =>
    obtain ⟨response, store⟩ := result
    have heffect := Server.perform_effect hperform
    rw [Server.dispatch_ok hperform] at haccepted ⊢
    cases heffect with
    | clusterInfo | listBuckets | getBucket | deleteBucket => cases haccepted
    | @createBucket _ _ s hbody hnew =>
      have hs := Api.valid_of_decodeSettings hbody
      rw [h.perform_createBucket hbody] at hperform
      split at hperform
      · cases hperform
      · next hfree =>
        split at hperform
        · next hfit =>
          cases hperform
          exact ⟨s, hbody, .inl rfl, rfl, h.create hs hfree hfit⟩
        · cases hperform
    | @updateBucket _ _ s hbody hthere =>
      have hs := Api.valid_of_decodeSettings hbody
      rw [h.perform_updateBucket hbody] at hperform
      split at hperform
      · cases hperform
      · next previous hfound =>
        split at hperform
        · cases hperform
        · split at hperform
          · next hfit =>
            cases hperform
            exact ⟨s, hbody, .inr rfl, rfl, h.update hs hfound hfit⟩
          · cases hperform

/-! ## What a client reads -/

/-- How a call fails whose answer is over the limit. -/
def Call.tooLarge (c : Call) (body : Bytes) : Failure :=
  .undecodable c.context (Fault.bodyTooLarge body.length).message

theorem Call.decoded_withinLimit {α : Type} (c : Call) (body : Bytes) (a : α)
    (answer : α → Answer) :
    c.decoded (withinLimit body a) answer =
      if body.length ≤ maxBodySize then .ok (answer a) else .error (c.tooLarge body) := by
  unfold withinLimit
  split <;> rfl

theorem Call.classify_accepted {c : Call} {s : Settings}
    (hc : c ∈ [Call.insertBucket s, .updateBucket s]) (body : Bytes) :
    c.classify ⟨.accepted, body⟩ = c.decoded (decodeSettings body) .settings := by
  rcases List.mem_pair.mp hc with rfl | rfl <;> rfl

/-- **What is applied is shown as long as it is short enough.** A request is accepted only to store
the settings in its body, made normal, and it is answered with them; so is the look-up that follows.
Both answers are read back exactly when they are within the limit. They are, unless the body came
within `maxBesidePassword` of it; and what a client writes for the same settings is as long as the
answers, or one byte shorter where a cache asks for an index of its replicas. -/
theorem applied_shown (h : Server.Reachable p sv)
    (haccepted : (sv.dispatch e body).1.status = .accepted) :
    ∃ s, decodeSettings body = .ok s ∧ (e = .createBucket ∨ e = .updateBucket s.name) ∧
      let after := (sv.dispatch e body).2
      let shown := encodeSettings s.normal
      Registry.get after.store s.name = .ok (some s.normal) ∧
      (sv.dispatch e body).1 = ⟨.accepted, shown⟩ ∧
      (∀ ignored, (after.dispatch (.getBucket s.name) ignored).1 = ⟨.ok, shown⟩) ∧
      decodeSettings shown = withinLimit shown s.normal ∧
      (∀ c ∈ [Call.insertBucket s, .updateBucket s],
        c.classify ⟨.accepted, shown⟩ = if shown.length ≤ maxBodySize
          then .ok (.settings s.normal) else .error (c.tooLarge shown)) ∧
      ((Call.bucket s.name).classify ⟨.ok, shown⟩ = if shown.length ≤ maxBodySize
          then .ok (.lookup (some s.normal)) else .error ((Call.bucket s.name).tooLarge shown)) ∧
      shown.length ≤ body.length + Api.maxBesidePassword ∧
      (body = encodeSettings s →
        shown.length = body.length + if s.kind = .memcached ∧ s.indexReplicas then 1 else 0) := by
  obtain ⟨-, buckets, hheld⟩ := h.holds
  obtain ⟨s, hbody, hroute, hresponse, hafter⟩ := dispatch_accepted hheld haccepted
  have hs := Api.valid_of_decodeSettings hbody
  have hshown := Api.decodeSettings_encodeSettings hs.storable_normal.valid
  refine ⟨s, hbody, hroute, hafter.keeps.get_put_normal, hresponse, ?_, hshown, ?_, ?_, ?_, ?_⟩
  · intro ignored
    rw [hafter.dispatch_getBucket (Registry.found_put_normal s buckets)]
  · intro c hc
    rw [Call.classify_accepted hc, hshown, Call.decoded_withinLimit]
  · change Call.decoded _ (decodeSettings (encodeSettings s.normal)) _ = _
    rw [hshown, Call.decoded_withinLimit]
  · exact length_encodeSettings_le_body hbody
  · rintro rfl
    exact Api.length_encodeSettings_normal hs

/-! ### One bucket on a node -/

/-- A node on which one bucket is registered. -/
def soloNode (s : Settings) : Server :=
  ((Server.start {}).dispatch .createBucket (encodeSettings s)).2

theorem reachable_soloNode (s : Settings) : Server.Reachable {} (soloNode s) :=
  Server.Reachable.start.dispatch .createBucket _

theorem holds_soloNode {s : Settings} (hs : s.Valid)
    (hsize : (encodeSettings s).length ≤ maxBodySize) (hfit : s.quotaMb.toNat ≤ 4096) :
    (Server.start {}).dispatch .createBucket (encodeSettings s) =
        (⟨.accepted, encodeSettings s.normal⟩, soloNode s) ∧
      (soloNode s).Holds [s.normal] := by
  have hfit : 0 + s.quotaMb.toNat ≤ 4096 := by omega
  have hstart := Server.holds_start {}
  have hdone := hstart.dispatch_create (Api.decodeSettings_of_le hs hsize) Bool.false_ne_true hfit
  have hheld := hstart.create hs Bool.false_ne_true hfit
  rw [soloNode, hdone]
  exact ⟨rfl, hheld⟩

theorem applied_shown_sampleSettings :
    ((Server.start {}).dispatch .createBucket (encodeSettings Api.sampleSettings)).1.status =
        .accepted ∧
      ∃ s, decodeSettings (encodeSettings Api.sampleSettings) = .ok s ∧
        Registry.get (soloNode Api.sampleSettings).store s.name = .ok (some s.normal) ∧
        decodeSettings (encodeSettings s.normal) =
          withinLimit (encodeSettings s.normal) s.normal := by
  obtain ⟨hdone, -⟩ := holds_soloNode Api.valid_sampleSettings (by decide +kernel)
    (by decide +kernel)
  have haccepted : ((Server.start {}).dispatch .createBucket
      (encodeSettings Api.sampleSettings)).1.status = .accepted := by
    rw [hdone]
  obtain ⟨s, hs, -, hget, -, -, hshown, -⟩ := applied_shown .start haccepted
  rw [hdone] at hget
  exact ⟨haccepted, s, hs, hget, hshown⟩

/-- A cache whose body is as large as a body may be. -/
def largestCache : Settings := Api.padded ⟨"a", by decide, by decide, by decide⟩ 4194141

theorem valid_largestCache : largestCache.Valid := Api.valid_padded _ _

theorem length_largestCache : (encodeSettings largestCache).length = maxBodySize :=
  Api.length_encodeSettings_padded _ _

theorem length_largestCache_normal : (encodeSettings largestCache.normal).length = 4194305 :=
  Api.length_encodeSettings_padded_normal _ _

/-- It is stored, and neither who sent it nor anyone else is shown it. -/
theorem applied_not_shown :
    let done := (Server.start {}).dispatch .createBucket (encodeSettings largestCache)
    (encodeSettings largestCache).length = maxBodySize ∧ done.1.status = .accepted ∧
      Registry.get done.2.store largestCache.name = .ok (some largestCache.normal) ∧
      decodeSettings done.1.body = .error (.bodyTooLarge 4194305) ∧
      (done.2.dispatch (.getBucket largestCache.name) []).1 = ⟨.ok, done.1.body⟩ ∧
      (Call.insertBucket largestCache).classify done.1 =
        .error ((Call.insertBucket largestCache).tooLarge done.1.body) := by
  intro done
  have hs := valid_largestCache
  obtain ⟨hdone, hheld⟩ := holds_soloNode hs (Nat.le_of_eq length_largestCache) (by decide)
  have hdone : done = _ := hdone
  have hshown : decodeSettings (encodeSettings largestCache.normal) =
      .error (.bodyTooLarge 4194305) := by
    rw [Api.decodeSettings_encodeSettings hs.storable_normal.valid, withinLimit,
      length_largestCache_normal, if_neg (by decide)]
  have hfound : found [largestCache.normal] largestCache.name = some largestCache.normal :=
    Registry.found_put_normal largestCache []
  have hstored := hheld.keeps.get largestCache.name
  rw [hfound] at hstored
  rw [hdone]
  refine ⟨length_largestCache, rfl, hstored, hshown, ?_, ?_⟩
  · rw [hheld.dispatch_getBucket hfound]
  · rw [Call.classify_accepted List.mem_cons_self, hshown, Call.tooLarge,
      length_largestCache_normal]
    rfl

/-! ## Listings -/

/-- **What a client finds in a listing.** The buckets that are stored, in the order of their names,
when all of them together are within the limit; nothing otherwise. -/
theorem reachable_listed (h : Server.Reachable p sv) :
    ∃ buckets, Keeps sv.store buckets ∧ Registry.Ordered buckets ∧
      let listing := encodeBucketList buckets
      (∀ ignored, sv.dispatch .listBuckets ignored = (⟨.ok, listing⟩, sv)) ∧
      decodeBucketList listing = withinLimit listing buckets ∧
      listing.length =
        2 + (buckets.map fun s => (encodeSettings s).length).sum + (buckets.length - 1) ∧
      ∀ session : Session Server, session.state = sv → ∃ session', session'.state = sv ∧
        session.ask inProcess .buckets = some (if listing.length ≤ maxBodySize
          then .ok (.buckets buckets) else .error (Call.buckets.tooLarge listing), session') := by
  obtain ⟨-, buckets, hheld⟩ := h.holds
  have hlisted := Api.decodeBucketList_encodeBucketList fun s hs => (hheld.storable s hs).valid
  refine ⟨buckets, hheld.keeps, hheld.keeps.ordered, hheld.dispatch_listBuckets, hlisted,
    Api.length_encodeBucketList buckets, ?_⟩
  rintro session rfl
  obtain ⟨session', hask, hstate⟩ := Op.ask_inProcess .list session
  rw [Op.endpoint, hheld.dispatch_listBuckets] at hask hstate
  refine ⟨session', hstate, hask.trans ?_⟩
  change some (Call.decoded _ (decodeBucketList _) _, session') = _
  rw [hlisted, Call.decoded_withinLimit]
  rfl

theorem reachable_listed_fullNode :
    ∃ buckets, Keeps Server.fullNode.store buckets ∧ Registry.Ordered buckets ∧
      decodeBucketList (encodeBucketList buckets) =
        withinLimit (encodeBucketList buckets) buckets := by
  have hreach : Server.Reachable {} Server.fullNode := .dispatch .start .createBucket _
  obtain ⟨buckets, hkeeps, hordered, -, hlisted, -⟩ := reachable_listed hreach
  exact ⟨buckets, hkeeps, hordered, hlisted⟩

/-! ### Two buckets on a node -/

/-- A node on which two buckets are registered. -/
def pairNode (s t : Settings) : Server :=
  ((soloNode s).dispatch .createBucket (encodeSettings t)).2

theorem reachable_pairNode (s t : Settings) : Server.Reachable {} (pairNode s t) :=
  (reachable_soloNode s).dispatch .createBucket _

theorem holds_pairNode {s t : Settings} (hs : s.Valid) (ht : t.Valid) (hlt : s.name < t.name)
    (hsize : (encodeSettings s).length ≤ maxBodySize)
    (htsize : (encodeSettings t).length ≤ maxBodySize)
    (hfit : s.quotaMb.toNat + t.quotaMb.toNat ≤ 4096) :
    (pairNode s t).Holds [s.normal, t.normal] := by
  obtain ⟨hdone, hheld⟩ := holds_soloNode hs hsize (by omega)
  have hprofile : (soloNode s).profile = {} := Server.profile_dispatch (.start {}) _ _
  have hfit : Registry.totalMb [s.normal] + t.quotaMb.toNat ≤
      (soloNode s).profile.ramTotalMb.toNat := by
    rw [hprofile]
    change s.normal.quotaMb.toNat + 0 + t.quotaMb.toNat ≤ 4096
    rw [Settings.normal_quotaMb]
    exact hfit
  have hgt : ¬t.name < s.name := fun h => Name.lt_irrefl _ (Name.lt_trans hlt h)
  have hne : s.name ≠ t.name := fun he => Name.lt_irrefl _ (he ▸ hlt)
  have hnew : ¬(found [s.normal] t.name).isSome := by
    rw [Registry.found_cons, Settings.normal_name, if_neg hne]
    exact Bool.false_ne_true
  have hput : put t.normal [s.normal] = [s.normal, t.normal] := by
    rw [put, Settings.normal_name, Settings.normal_name, if_neg hgt, if_pos hlt, put]
  rw [pairNode, hheld.dispatch_create (Api.decodeSettings_of_le ht htsize) hnew hfit, ← hput]
  exact hheld.create ht hnew hfit

theorem listing_over_limit {n : Nat} (h : sv.Holds buckets)
    (hlength : (encodeBucketList buckets).length = n) (hover : maxBodySize < n) :
    (sv.dispatch .listBuckets []).1.status = .ok ∧
      decodeBucketList (sv.dispatch .listBuckets []).1.body = .error (.bodyTooLarge n) := by
  have hlisted := Api.decodeBucketList_encodeBucketList fun s hs => (h.storable s hs).valid
  rw [withinLimit, hlength, if_neg (Nat.not_le.mpr hover)] at hlisted
  rw [h.dispatch_listBuckets]
  exact ⟨rfl, hlisted⟩

/-- Two caches whose bodies are about half as large as a body may be. -/
def halfCaches : Settings × Settings :=
  (Api.padded ⟨"a", by decide, by decide, by decide⟩ 2097152,
    Api.padded ⟨"b", by decide, by decide, by decide⟩ 2097152)

theorem length_halfCaches :
    (encodeSettings halfCaches.1).length = 2097315 ∧
      (encodeSettings halfCaches.2).length = 2097315 :=
  ⟨Api.length_encodeSettings_padded _ _, Api.length_encodeSettings_padded _ _⟩

theorem length_halfCaches_normal :
    (encodeSettings halfCaches.1.normal).length = 2097316 ∧
      (encodeSettings halfCaches.2.normal).length = 2097316 :=
  ⟨Api.length_encodeSettings_padded_normal _ _, Api.length_encodeSettings_padded_normal _ _⟩

/-- The listing of a bucket that is over the limit is over the limit, and so is that of two buckets
that are each within. The bodies that were sent are all within. -/
theorem listing_not_shown :
    (∀ s ∈ [largestCache, halfCaches.1, halfCaches.2],
        (encodeSettings s).length ≤ maxBodySize) ∧
      (Server.Reachable {} (soloNode largestCache) ∧
        Keeps (soloNode largestCache).store [largestCache.normal] ∧
        ((soloNode largestCache).dispatch .listBuckets []).1.status = .ok ∧
        decodeBucketList ((soloNode largestCache).dispatch .listBuckets []).1.body =
          .error (.bodyTooLarge 4194307)) ∧
      Server.Reachable {} (pairNode halfCaches.1 halfCaches.2) ∧
        Keeps (pairNode halfCaches.1 halfCaches.2).store
          [halfCaches.1.normal, halfCaches.2.normal] ∧
        ((pairNode halfCaches.1 halfCaches.2).dispatch .listBuckets []).1.status = .ok ∧
        decodeBucketList ((pairNode halfCaches.1 halfCaches.2).dispatch .listBuckets []).1.body =
          .error (.bodyTooLarge 4194635) := by
  obtain ⟨hfirst, hsecond⟩ := length_halfCaches
  obtain ⟨hfirst', hsecond'⟩ := length_halfCaches_normal
  have hfirst : (encodeSettings halfCaches.1).length ≤ maxBodySize := hfirst.trans_le (by decide)
  have hsecond : (encodeSettings halfCaches.2).length ≤ maxBodySize := hsecond.trans_le (by decide)
  have hlargest : (encodeSettings largestCache).length ≤ maxBodySize :=
    Nat.le_of_eq length_largestCache
  refine ⟨?_, ⟨reachable_soloNode _, ?_⟩, reachable_pairNode _ _, ?_⟩
  · exact List.forall_mem_cons.mpr
      ⟨hlargest, List.forall_mem_cons.mpr ⟨hfirst, List.forall_mem_singleton.mpr hsecond⟩⟩
  · obtain ⟨-, hheld⟩ := holds_soloNode valid_largestCache hlargest (by decide)
    have hlength : (encodeBucketList [largestCache.normal]).length = 4194307 := by
      rw [Api.length_encodeBucketList, List.map_singleton, length_largestCache_normal]
      rfl
    exact ⟨hheld.keeps, listing_over_limit hheld hlength (by decide)⟩
  · have hheld := holds_pairNode (Api.valid_padded _ _) (Api.valid_padded _ _) (by decide) hfirst
      hsecond (by decide)
    have hlength : (encodeBucketList [halfCaches.1.normal, halfCaches.2.normal]).length =
        4194635 := by
      rw [Api.length_encodeBucketList, List.map_cons, List.map_singleton, hfirst', hsecond']
      rfl
    exact ⟨hheld.keeps, listing_over_limit hheld hlength (by decide)⟩

end BucketAdmin.Client
