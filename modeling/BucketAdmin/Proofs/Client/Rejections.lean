import BucketAdmin.Proofs.Api.Size
import BucketAdmin.Proofs.Client.Classification
import BucketAdmin.Proofs.Client.Traffic
import BucketAdmin.Proofs.Json.Cost

/-!
# Why calls are rejected

A client that writes its own requests is rejected for a few causes only (`Cause`), each told by
what the server stores, by the size of its memory or its disk, or by the length of the body. All
else that can be wrong with a request is wrong with none of these. Whatever the cause, the words for
it are short (`Cause.length_message_le`), so that the error body is within the limit of its reader,
and a caller finds in a failure just the words that the server has for the cause
(`rejected_verbatim`).
-/

namespace BucketAdmin

/-! ## How long words are -/

namespace Json

theorem quote_append (s t : String) : quote (s ++ t) = quote s ++ quote t := by
  rw [quote, String.toList_append, List.flatMap_append]
  rfl

theorem length_quote_le_mul (s : String) : (quote s).length ≤ 6 * s.length := by
  rw [quote, ← String.length_toList]
  induction s.toList with
  | nil => exact Nat.le_refl 0
  | cons c cs ih =>
    have hc := length_quoteChar_le c
    rw [List.flatMap_cons, List.length_append, List.length_cons]
    omega

/-- The words for a number of 64 bits are no longer than twenty escapes. -/
theorem length_quote_toString_le {n : Nat} (h : n < UInt64.size) :
    (quote (toString n)).length ≤ 120 := by
  have hdigits : (toString n).length = (numeral n).length := by
    rw [numeral, List.length_map, ← String.length_toList]
    exact congrArg List.length String.toList_ofList
  have hnumeral : (numeral n).length ≤ 20 :=
    length_numeral_le (Nat.lt_trans h (by decide))
  have hquote := length_quote_le_mul (toString n)
  omega

end Json

namespace Api

/-- An error body takes twelve bytes around its message. -/
theorem length_encodeError (message : String) :
    (encodeError message).length = 12 + (Json.quote message).length := by
  have hkey : (Json.quote "error").length = 5 := by decide
  rw [encodeError, Json.length_ofMembers (by simp)]
  simp only [List.map_cons, List.map_nil, List.sum_cons, List.sum_nil, Json.length_ofText, hkey]
  omega

end Api

namespace Client

open Api (Endpoint Fault Response Status decodeSettings encodeSettings maxBodySize)
open Bucket (Name Settings SettingsFault)
open Json (quote quote_append)
open Registry (found quotaOf totalMb without)
open Server (Rejection)

/-! ## Causes -/

/-- Why a server rejects a call. -/
inductive Cause (sv : Server) : Call → Rejection → Prop
  | taken {s t : Settings} (h : Registry.get sv.store s.name = .ok (some t)) :
      Cause sv (.insertBucket s) (.registry (.bucketExists s.name))
  | missing {c : Call} {n : Name}
      (hc : c = .bucket n ∨ c = .hasBucket n ∨ c = .removeBucket n ∨
        ∃ s, c = .updateBucket s ∧ s.name = n)
      (h : Registry.get sv.store n = .ok none) : Cause sv c (.registry (.bucketMissing n))
  | kind {s t : Settings} (h : Registry.get sv.store s.name = .ok (some t))
      (hkind : t.kind ≠ s.kind) :
      Cause sv (.updateBucket s) (.registry (.settings (.kindChange s.name t.kind s.kind)))
  /-- The quota does not fit beside those of the other buckets. -/
  | capacity {c : Call} {s : Settings} {buckets : List Settings}
      (hc : c = .insertBucket s ∨ c = .updateBucket s)
      (hlist : Registry.list sv.store = .ok buckets)
      (h : sv.profile.ramTotalMb.toNat < totalMb (without s.name buckets) + s.quotaMb.toNat) :
      Cause sv c (.registry (.settings (.overCapacity s.quotaMb
        (sv.profile.ramTotalMb.toNat - totalMb (without s.name buckets)))))
  | body {c : Call} {s : Settings} (hc : c = .insertBucket s ∨ c = .updateBucket s)
      (h : maxBodySize < (encodeSettings s).length) :
      Cause sv c (.body (.bodyTooLarge (encodeSettings s).length))
  /-- What the node has, or what the buckets take of it, does not fit 64 bits as bytes. -/
  | bytes {mb : UInt64} {buckets : List Settings} (hlist : Registry.list sv.store = .ok buckets)
      (h : Server.Oversized sv.profile buckets mb) :
      Cause sv .info (.registry (.settings (.bytesTooLarge mb)))

/-- The bucket that a call finds missing or taken is told by the status alone. -/
def Cause.InStatus : Rejection → Prop
  | .registry (.bucketExists _) | .registry (.bucketMissing _) => True
  | _ => False

variable {p : Server.Profile} {sv : Server} {buckets : List Settings} {c : Call} {s : Settings}
  {rejection : Rejection}

theorem length_quote_name_le (n : Name) : (quote n.text).length ≤ 100 := by
  rw [Bucket.quote_name]
  exact n.valid.length_le

/-- The words for a cause are few. -/
theorem Cause.length_message_le (h : Cause sv c rejection) (hlength : c.body.length < UInt64.size) :
    (quote rejection.message).length ≤ 1000 := by
  cases h with
  | @taken s =>
    have hname := length_quote_name_le s.name
    have hwords : (quote "Bucket already exists: ").length = 23 := by decide
    change (quote ("Bucket already exists: " ++ s.name.text)).length ≤ 1000
    rw [quote_append, List.length_append]
    omega
  | @missing _ n =>
    have hname := length_quote_name_le n
    have hwords : (quote "Bucket not found: ").length = 18 := by decide
    change (quote ("Bucket not found: " ++ n.text)).length ≤ 1000
    rw [quote_append, List.length_append]
    omega
  | @kind s t =>
    have hname := length_quote_name_le s.name
    have hold := Bucket.length_quote_kind t.kind
    have hnew := Bucket.length_quote_kind s.kind
    have hwords : (quote "Invalid bucket settings: ").length + (quote "bucket type of ").length +
        (quote " cannot change from ").length + (quote " to ").length = 64 := by
      decide
    change (quote ("Invalid bucket settings: " ++ ("bucket type of " ++ s.name.text ++
      " cannot change from " ++ t.kind.text ++ " to " ++ s.kind.text))).length ≤ 1000
    simp only [quote_append, List.length_append]
    omega
  | @capacity _ s buckets =>
    have hquota := Json.length_quote_toString_le s.quotaMb.toNat_lt_size
    generalize hleft : sv.profile.ramTotalMb.toNat - totalMb (without s.name buckets) = left
    have hfits : left < UInt64.size :=
      hleft ▸ Nat.lt_of_le_of_lt (Nat.sub_le ..) sv.profile.ramTotalMb.toNat_lt_size
    have hshort := Json.length_quote_toString_le hfits
    have hwords : (quote "Invalid bucket settings: ").length + (quote "quota of ").length +
        (quote " MB exceeds the ").length + (quote " MB left in the cluster").length = 73 := by
      decide
    change (quote ("Invalid bucket settings: " ++ ("quota of " ++ toString s.quotaMb.toNat ++
      " MB exceeds the " ++ toString left ++ " MB left in the cluster"))).length ≤ 1000
    simp only [quote_append, List.length_append]
    omega
  | @body _ s hc =>
    have hlength : (encodeSettings s).length < UInt64.size := by
      rcases hc with rfl | rfl <;> exact hlength
    have hsize := Json.length_quote_toString_le hlength
    have hmax : (quote (toString maxBodySize)).length = 7 := by decide
    have hwords : (quote "Body too large: ").length + (quote " bytes (max: ").length +
        (quote ")").length = 30 := by
      decide
    change (quote ("Body too large: " ++ toString (encodeSettings s).length ++ " bytes (max: " ++
      toString maxBodySize ++ ")")).length ≤ 1000
    simp only [quote_append, List.length_append]
    omega
  | @bytes mb =>
    have hmb := Json.length_quote_toString_le mb.toNat_lt_size
    have hwords : (quote "Invalid bucket settings: ").length +
        (quote " MB does not fit in a byte count").length = 57 := by
      decide
    change (quote ("Invalid bucket settings: " ++ (toString mb.toNat ++
      " MB does not fit in a byte count"))).length ≤ 1000
    simp only [quote_append, List.length_append]
    omega

/-- No words for a cause are too long for the reader of an error body. -/
theorem Cause.decodeError?_response (h : Cause sv c rejection)
    (hlength : c.body.length < UInt64.size) :
    Api.decodeError? rejection.response.body = some rejection.message := by
  have hmessage := h.length_message_le hlength
  have hsize : (Api.encodeError rejection.message).length ≤ maxBodySize := by
    rw [Api.length_encodeError]
    exact Nat.le_trans (Nat.add_le_add_left hmessage 12) (by decide)
  change Api.decodeError? (Api.encodeError rejection.message) = _
  rw [Api.decodeError?_encodeError, if_pos hsize]

theorem errorMessage_of_decodeError? {response : Response} {message : String}
    (h : Api.decodeError? response.body = some message) : response.errorMessage = message := by
  rw [Response.errorMessage, h]

/-! ## Every rejection has a cause -/

section Causes

variable (h : sv.Holds buckets)
include h

theorem cause_missing {n : Name} (hfound : found buckets n = none) (hc : c = .bucket n ∨
    c = .hasBucket n ∨ c = .removeBucket n ∨ ∃ s, c = .updateBucket s ∧ s.name = n) :
    Cause sv c (.registry (.bucketMissing n)) :=
  .missing hc (by rw [h.keeps.get, hfound])

theorem cause_getBucket {n : Name} {body : Bytes} (hc : c = .bucket n ∨ c = .hasBucket n)
    (herror : sv.perform (.getBucket n) body = .error rejection) : Cause sv c rejection := by
  rw [h.perform_getBucket] at herror
  split at herror
  · cases herror
  · next hfound =>
    cases herror
    exact cause_missing h hfound (by tauto)

theorem cause_capacity (hc : c = .insertBucket s ∨ c = .updateBucket s) {others : Nat}
    (hothers : others + quotaOf (found buckets s.name) = totalMb buckets)
    (hfit : ¬others + s.quotaMb.toNat ≤ sv.profile.ramTotalMb.toNat) :
    Cause sv c (.registry (.settings (.overCapacity s.quotaMb
      (sv.profile.ramTotalMb.toNat - others)))) := by
  have hsum := Registry.totalMb_without h.keeps.ordered s.name
  obtain rfl : others = totalMb (without s.name buckets) := by omega
  exact .capacity hc h.keeps.list (Nat.lt_of_not_le hfit)

theorem cause_insertBucket (hs : s.Valid)
    (herror : sv.perform .createBucket (encodeSettings s) = .error rejection) :
    Cause sv (.insertBucket s) rejection := by
  by_cases hsize : (encodeSettings s).length ≤ maxBodySize
  · rw [h.perform_createBucket (Api.decodeSettings_of_le hs hsize)] at herror
    split at herror
    · next htaken =>
      cases herror
      obtain ⟨t, hfound⟩ := Option.isSome_iff_exists.mp htaken
      exact .taken (by rw [h.keeps.get, hfound])
    · next hnew =>
      split at herror
      · cases herror
      · next hfit =>
        cases herror
        refine cause_capacity h (.inl rfl) ?_ hfit
        rw [Option.not_isSome_iff_eq_none.mp hnew]
        rfl
  · simp only [Server.perform, Server.readSettings, Api.decodeSettings_of_not_le hs hsize,
      mapError_error, error_bind] at herror
    cases herror
    exact .body (.inl rfl) (Nat.lt_of_not_le hsize)

theorem cause_updateBucket (hs : s.Valid)
    (herror : sv.perform (.updateBucket s.name) (encodeSettings s) = .error rejection) :
    Cause sv (.updateBucket s) rejection := by
  by_cases hsize : (encodeSettings s).length ≤ maxBodySize
  · rw [h.perform_updateBucket (Api.decodeSettings_of_le hs hsize)] at herror
    split at herror
    · next hfound =>
      cases herror
      exact cause_missing h hfound (.inr (.inr (.inr ⟨s, rfl, rfl⟩)))
    · next previous hfound =>
      split at herror
      · next hkind =>
        cases herror
        exact .kind (by rw [h.keeps.get, hfound]) hkind
      · split at herror
        · cases herror
        · next hfit =>
          cases herror
          refine cause_capacity h (.inr rfl) ?_ hfit
          have hle := Registry.quotaMb_le_totalMb (Registry.mem_of_found hfound)
          rw [hfound]
          exact Nat.sub_add_cancel hle
  · simp only [Server.perform, Server.readSettings, Api.decodeSettings_of_not_le hs hsize,
      mapError_error, error_bind] at herror
    cases herror
    exact .body (.inr rfl) (Nat.lt_of_not_le hsize)

/-- A call whose settings are within bounds is rejected for one of the causes only. -/
theorem cause_of_perform (hvalid : ∀ s, c.request.payload = some s → s.Valid)
    (herror : sv.perform c.endpoint c.body = .error rejection) : Cause sv c rejection := by
  cases c with
  | info =>
    rcases bind_eq_error.mp herror with hinfo | ⟨info, -, hdone⟩
    · obtain ⟨refusal, hsnapshot, rfl⟩ := mapError_eq_error.mp hinfo
      obtain ⟨mb, rfl, hlarge⟩ := h.snapshot_error hsnapshot
      exact .bytes h.keeps.list hlarge
    · cases hdone
  | buckets =>
    have hdone := h.perform_listBuckets Call.buckets.body
    cases hdone.symm.trans herror
  | bucket n => exact cause_getBucket h (.inl rfl) herror
  | hasBucket n => exact cause_getBucket h (.inr rfl) herror
  | insertBucket s => exact cause_insertBucket h (hvalid s rfl) herror
  | updateBucket s => exact cause_updateBucket h (hvalid s rfl) herror
  | removeBucket n =>
    change sv.perform (.deleteBucket n) _ = _ at herror
    rw [h.perform_deleteBucket] at herror
    split at herror
    · cases herror
    · next hfound =>
      cases herror
      exact cause_missing h (Option.not_isSome_iff_eq_none.mp hfound) (by tauto)

end Causes

/-! ## What the caller is told -/

/-- The causes of status 400 have no answer of their own, whatever the call. -/
theorem Cause.classify_eq (h : Cause sv c rejection) (hstatus : ¬Cause.InStatus rejection) :
    c.classify rejection.response = .error (c.unexpected rejection.response) := by
  cases h with
  | taken | missing => exact absurd trivial hstatus
  | kind | bytes => rfl
  | capacity hc | body hc => rcases hc with rfl | rfl <;> rfl

theorem Cause.code_status (h : Cause sv c rejection) (hstatus : ¬Cause.InStatus rejection) :
    rejection.status.code = 400 := by
  cases h with
  | taken | missing => exact absurd trivial hstatus
  | kind | bytes | capacity | body => rfl

/-- A failure of the transport that a call makes of a response passes on its words and its code. -/
theorem eq_of_classify_eq_transport {response : Response} {context : Context} {text : String}
    (h : c.classify response = .error (.transport context text)) :
    context = c.context ∧
      text = response.errorMessage ++ " (" ++ toString response.status.code ++ ")" := by
  unfold Call.classify at h
  split at h
  · cases c with
    | hasBucket | removeBucket => cases h
    | info | buckets | bucket | insertBucket | updateBucket =>
      unfold Call.accept Call.decoded at h
      dsimp only at h
      split at h <;> cases h
  · split at h <;> cases h
    exact ⟨rfl, rfl⟩

/-- How a rejection comes to the caller in a response. -/
structure Relayed (c : Call) (rejection : Rejection) (response : Response) : Prop where
  decoded : Api.decodeError? response.body = some rejection.message
  errorMessage : response.errorMessage = rejection.message
  missing : ∀ n, rejection = .registry (.bucketMissing n) →
    rejection.message = "Bucket not found: " ++ n.text
  /-- Where the call has an answer of its own for the status, it does not come to a failure of the
  transport; where it does, the failure has the words and the code. -/
  transport : ∀ context text, c.classify response = .error (.transport context text) →
    context = c.context ∧
      text = rejection.message ++ " (" ++ toString response.status.code ++ ")"
  /-- It does for every cause but a bucket that is missing or taken. -/
  failure : ¬Cause.InStatus rejection →
    c.classify response = .error (.transport c.context (rejection.message ++ " (400)"))

theorem Cause.relayed (h : Cause sv c rejection) (hlength : c.body.length < UInt64.size) :
    Relayed c rejection rejection.response := by
  have hdecoded := h.decodeError?_response hlength
  have hmessage := errorMessage_of_decodeError? hdecoded
  refine ⟨hdecoded, hmessage, ?_, ?_, ?_⟩
  · rintro n rfl
    rfl
  · intro context text htext
    obtain ⟨hcontext, rfl⟩ := eq_of_classify_eq_transport htext
    rw [hmessage]
    exact ⟨hcontext, rfl⟩
  · intro hstatus
    rw [h.classify_eq hstatus, Call.unexpected, hmessage]
    change Except.error (Failure.transport c.context
      (rejection.message ++ " (" ++ toString rejection.status.code ++ ")")) = _
    rw [h.code_status hstatus, String.append_assoc, String.append_assoc]
    rfl

/-- **What a server has to say of a rejection reaches the caller word for word.** In every state
that a server can reach, a call with settings within bounds that is not done was rejected for one
of the causes, and its words are those the caller reads. A body has a length of 64 bits. -/
theorem rejected_verbatim (h : Server.Reachable p sv)
    (hvalid : ∀ s, c.request.payload = some s → s.Valid) (hlength : c.body.length < UInt64.size)
    (hrejected : (sv.dispatch c.endpoint c.body).1.status.isSuccess = false) :
    c.request.endpoint = .ok c.endpoint ∧ ∃ rejection,
      sv.perform c.endpoint c.body = .error rejection ∧ Cause sv c rejection ∧
        Relayed c rejection (sv.dispatch c.endpoint c.body).1 := by
  refine ⟨c.endpoint_request, ?_⟩
  obtain ⟨-, buckets, hheld⟩ := h.holds
  have hend := hheld.endsWell c.endpoint c.body
  cases hperform : sv.perform c.endpoint c.body with
  | ok done =>
    rw [hperform] at hend
    rw [Server.dispatch_ok hperform, hend.1] at hrejected
    cases hrejected
  | error rejection =>
    have hcause := cause_of_perform hheld hvalid hperform
    rw [Server.dispatch_error hperform]
    exact ⟨rejection, rfl, hcause, hcause.relayed hlength⟩

/-- A full node has no room for one more bucket, and says so. -/
theorem rejected_verbatim_fullNode :
    let c := Call.insertBucket (.blank ⟨"small", by decide, by decide, by decide⟩)
    c.classify (Server.fullNode.dispatch c.endpoint c.body).1 = .error (.transport c.context
      "Invalid bucket settings: quota of 100 MB exceeds the 0 MB left in the cluster (400)") := by
  intro c
  have hreach : Server.Reachable {} Server.fullNode := .dispatch .start .createBucket _
  have hperform : Server.fullNode.perform c.endpoint c.body =
      .error (.registry (.settings (.overCapacity 100 0))) := by
    decide +kernel
  have hvalid : ∀ s, c.request.payload = some s → s.Valid := by
    rintro s hs
    cases hs
    exact ⟨by decide, by decide⟩
  have hlength : c.body.length < UInt64.size := by decide +kernel
  have hrejected : (Server.fullNode.dispatch c.endpoint c.body).1.status.isSuccess = false := by
    rw [Server.dispatch_error hperform]
    rfl
  obtain ⟨-, rejection, hsame, -, hrelayed⟩ := rejected_verbatim hreach hvalid hlength hrejected
  obtain rfl := Except.error.inj (hperform.symm.trans hsame)
  exact hrelayed.failure id

end Client

end BucketAdmin
