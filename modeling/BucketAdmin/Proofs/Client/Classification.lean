import BucketAdmin.Proofs.Client.Refinement

/-!
# What a call makes of a response

The code of the response decides. From 200 to 299 the call is done and its body is read, or only its
being done counts; 404 and 409 have a meaning for some calls (`Call.Foresees`); anything else is a
failure that passes on what the server says. `Classified` is the whole table, for the seven calls
next to each other and one response. The calls keep to it for every code and every body
(`ask_classified`), whatever transport the response comes from.
-/

namespace BucketAdmin

/-! ## Codes -/

namespace Api.Status

/-- The codes of requests that were done. -/
def Success (code : UInt16) : Prop := 200 ≤ code ∧ code < 300

instance (code : UInt16) : Decidable (Success code) := inferInstanceAs (Decidable (_ ∧ _))

variable {code : UInt16}

theorem isSuccess_ofCode : (ofCode code).isSuccess = true ↔ Success code := by
  unfold ofCode
  split
  · next h => exact iff_of_true rfl (h ▸ by decide)
  split
  · next h => exact iff_of_true rfl (h ▸ by decide)
  split
  · next h => exact iff_of_false Bool.false_ne_true (h ▸ by decide)
  split
  · next h => exact iff_of_false Bool.false_ne_true (h ▸ by decide)
  split
  · next h => exact iff_of_false Bool.false_ne_true (h ▸ by decide)
  split
  · next h => exact iff_of_false Bool.false_ne_true (h ▸ by decide)
  · simp [isSuccess, Success]

theorem ofCode_eq_notFound (h : ofCode code = .notFound) : code = 404 := by
  rw [← code_ofCode code, h]
  rfl

theorem ofCode_eq_conflict (h : ofCode code = .conflict) : code = 409 := by
  rw [← code_ofCode code, h]
  rfl

end Api.Status

namespace Client

open Api (Fault Response Status decodeInfo decodeSettings decodeBucketList)
open Api.Status (Success)
open Bucket (Name Settings)

/-! ## The table -/

/-- What is read in a body is the answer, and what is wrong with the body is the failure. -/
def Call.Tells {α : Type} (c : Call) (content : Except Fault α) (answer : α → Answer)
    (outcome : Outcome Answer) : Prop :=
  (∀ a, content = .ok a → outcome = .ok (answer a)) ∧
    ∀ fault, content = .error fault → outcome = .error (.undecodable c.context fault.message)

/-- The codes with a meaning of their own for a call that is not done. -/
def Call.Foresees (c : Call) (code : UInt16) : Prop :=
  match c with
  | .info | .buckets => False
  | .bucket _ | .hasBucket _ | .updateBucket _ | .removeBucket _ => code = 404
  | .insertBucket _ => code = 409

/-- What each call comes to on a response with a code and a body. -/
structure Classified (code : UInt16) (body : Bytes) (outcome : Call → Outcome Answer) : Prop where
  info : Success code → Call.info.Tells (decodeInfo body) .info (outcome .info)
  buckets : Success code → Call.buckets.Tells (decodeBucketList body) .buckets (outcome .buckets)
  bucket : ∀ n, Success code →
    (Call.bucket n).Tells (decodeSettings body) (fun s => .lookup (some s)) (outcome (.bucket n))
  settings : ∀ s, Success code → ∀ c ∈ [Call.insertBucket s, .updateBucket s],
    c.Tells (decodeSettings body) .settings (outcome c)
  done : ∀ n, Success code → ∀ c ∈ [Call.hasBucket n, .removeBucket n], outcome c = .ok (.flag true)
  missing : ∀ n s, code = 404 →
    outcome (.bucket n) = .ok (.lookup none) ∧ outcome (.hasBucket n) = .ok (.flag false) ∧
      outcome (.removeBucket n) = .ok (.flag false) ∧
      outcome (.updateBucket s) = .error (.notFound ⟨.updateBucket, some s.name⟩)
  taken : ∀ s, code = 409 →
    outcome (.insertBucket s) = .error (.alreadyExists ⟨.insertBucket, some s.name⟩)
  /-- The failure passes on what the response says, and its code. -/
  other : ∀ c, ¬Success code → ¬c.Foresees code → outcome c =
    .error (.transport c.context ((Response.mk (.ofCode code) body).errorMessage ++ " (" ++
      toString code ++ ")"))
  /-- Every failure is that of the call itself, and none is for want of time. -/
  own : ∀ c failure, outcome c = .error failure →
    failure.context = ⟨c.request.operation, c.request.target⟩ ∧ failure.isTimeout = false
  /-- A probe and a look-up differ in what they make of a body, and in nothing else. -/
  probe : ∀ n,
    (outcome (.hasBucket n) = .ok (.flag false) ↔ outcome (.bucket n) = .ok (.lookup none)) ∧
    (outcome (.hasBucket n) = .ok (.flag true) ↔
      (∃ s, outcome (.bucket n) = .ok (.lookup (some s))) ∨
        ∃ message, outcome (.bucket n) =
          .error (.undecodable ⟨.getBucket, some n⟩ message)) ∧
    (outcome (.hasBucket n) ≠ .ok (.flag false) → outcome (.hasBucket n) ≠ .ok (.flag true) →
      ∃ message, outcome (.hasBucket n) = .error (.transport ⟨.hasBucket, some n⟩ message) ∧
        outcome (.bucket n) = .error (.transport ⟨.getBucket, some n⟩ message))

/-! ## The calls keep to it -/

namespace Call

variable {c : Call} {code : UInt16} {body : Bytes} {n : Name}

theorem tells_decoded {α : Type} (c : Call) (content : Except Fault α) (answer : α → Answer) :
    c.Tells content answer (c.decoded content answer) := by
  constructor
  · rintro a rfl
    rfl
  · rintro fault rfl
    rfl

theorem classify_success (h : Success code) : c.classify ⟨.ofCode code, body⟩ = c.accept body := by
  unfold classify
  exact if_pos (Status.isSuccess_ofCode.mpr h)

theorem unexpected_ofCode (c : Call) (code : UInt16) (body : Bytes) :
    c.unexpected ⟨.ofCode code, body⟩ =
      .transport c.context ((Response.mk (.ofCode code) body).errorMessage ++ " (" ++
        toString code ++ ")") := by
  rw [unexpected, Status.code_ofCode]
  rfl

theorem classify_other (h : ¬Success code) (hown : ¬c.Foresees code) :
    c.classify ⟨.ofCode code, body⟩ =
      .error (.transport c.context ((Response.mk (.ofCode code) body).errorMessage ++ " (" ++
        toString code ++ ")")) := by
  have hrefused : ¬(Status.ofCode code).isSuccess = true := fun hs =>
    h (Status.isSuccess_ofCode.mp hs)
  unfold classify
  rw [if_neg hrefused]
  split
  · next hstatus => exact absurd (Status.ofCode_eq_notFound hstatus) hown
  · next hstatus => exact absurd (Status.ofCode_eq_notFound hstatus) hown
  · next hstatus => exact absurd (Status.ofCode_eq_notFound hstatus) hown
  · next hstatus => exact absurd (Status.ofCode_eq_notFound hstatus) hown
  · next hstatus => exact absurd (Status.ofCode_eq_conflict hstatus) hown
  · rw [unexpected_ofCode]

theorem own_decoded {α : Type} {content : Except Fault α} {answer : α → Answer} {failure : Failure}
    (h : c.decoded content answer = .error failure) :
    failure.context = c.context ∧ failure.isTimeout = false := by
  cases content with
  | ok a => cases h
  | error fault =>
    cases h
    exact ⟨rfl, rfl⟩

theorem own_accept {failure : Failure} (h : c.accept body = .error failure) :
    failure.context = c.context ∧ failure.isTimeout = false := by
  cases c with
  | info | buckets | bucket | insertBucket | updateBucket => exact own_decoded h
  | hasBucket | removeBucket => cases h

/-- A failure that a call makes of a response is its own. -/
theorem own_classify {response : Response} {failure : Failure}
    (h : c.classify response = .error failure) :
    failure.context = c.context ∧ failure.isTimeout = false := by
  unfold classify at h
  split at h
  · exact own_accept h
  · split at h <;> cases h <;> exact ⟨rfl, rfl⟩

/-- A probe and a look-up go the same way. -/
theorem probe_cases (n : Name) (code : UInt16) (body : Bytes) :
    let has := (hasBucket n).classify ⟨.ofCode code, body⟩
    let got := (bucket n).classify ⟨.ofCode code, body⟩
    (has = .ok (.flag true) ∧
      got = (bucket n).decoded (decodeSettings body) fun s => .lookup (some s)) ∨
    (has = .ok (.flag false) ∧ got = .ok (.lookup none)) ∨
    ∃ message, has = .error (.transport ⟨.hasBucket, some n⟩ message) ∧
      got = .error (.transport ⟨.getBucket, some n⟩ message) := by
  intro has got
  by_cases hsuccess : Success code
  · exact .inl ⟨classify_success hsuccess, classify_success hsuccess⟩
  · by_cases hmissing : code = 404
    · subst hmissing
      exact .inr (.inl ⟨rfl, rfl⟩)
    · exact .inr (.inr ⟨_, classify_other hsuccess hmissing, classify_other hsuccess hmissing⟩)

end Call

theorem classified (code : UInt16) (body : Bytes) :
    Classified code body fun c => c.classify ⟨.ofCode code, body⟩ where
  info := fun h => by
    rw [Call.classify_success h]
    exact Call.tells_decoded _ _ _
  buckets := fun h => by
    rw [Call.classify_success h]
    exact Call.tells_decoded _ _ _
  bucket := fun n h => by
    rw [Call.classify_success h]
    exact Call.tells_decoded _ _ _
  settings := fun s h c hc => by
    rw [Call.classify_success h]
    rcases List.mem_pair.mp hc with rfl | rfl <;> exact Call.tells_decoded _ _ _
  done := fun n h c hc => by
    rw [Call.classify_success h]
    rcases List.mem_pair.mp hc with rfl | rfl <;> rfl
  missing := by
    rintro n s rfl
    exact ⟨rfl, rfl, rfl, rfl⟩
  taken := by
    rintro s rfl
    rfl
  other := fun c h hown => Call.classify_other h hown
  own := fun c failure h => Call.own_classify h
  probe := by
    intro n
    rcases Call.probe_cases n code body with ⟨hhas, hgot⟩ | ⟨hhas, hgot⟩ | ⟨message, hhas, hgot⟩
    · rw [hhas, hgot]
      cases decodeSettings body with
      | ok s => simp [Call.decoded]
      | error fault => simp [Call.decoded, Call.context, Call.request, Context.ofRequest,
          Api.Request.getBucket]
    · rw [hhas, hgot]
      simp
    · rw [hhas, hgot]
      simp

/-- **A response is classified by its code alone, and the same way for every body.** Each call, over
any transport that completes its request, comes to what the table has for the code of the response
and its body, and a failure of the transport stays as it is. -/
theorem ask_classified :
    (∀ code body, Classified code body fun c => c.resolve (.ok ⟨.ofCode code, body⟩)) ∧
    (∀ (c : Call) (failure : Failure), c.resolve (.error failure) = .error failure) ∧
    ∀ {σ : Type} (t : Transport σ) (session : Session σ) (c : Call),
      (t c.request session.state).1.delay ≠ none →
      ∃ after, session.ask t c =
        some (c.resolve (t c.request session.state).1.outcome, after) := by
  refine ⟨classified, fun c failure => rfl, ?_⟩
  intro σ t session c hdelay
  obtain ⟨delay, hdelay⟩ := Option.ne_none_iff_exists'.mp hdelay
  simp only [Session.ask, Session.issue, Session.await, hdelay, Option.map_some]
  exact ⟨_, rfl⟩

/-- A registration that meets with a bucket of its name, over a transport that takes a second, and a
look-up whose transport fails. -/
theorem ask_classified_sampleSettings :
    let script : Script := ⟨[(.insertBucket, .error (.ofCode 409) "taken")], .ofSeconds 1⟩
    let failing : Queue := [(.getBucket, .fail fun c => .timeout c (.ofSeconds 1))]
    let c := Call.insertBucket Api.sampleSettings
    let n := Api.sampleSettings.name
    (∃ after, (Session.start script).ask Script.transport c =
      some (.error (.alreadyExists ⟨.insertBucket, some n⟩), after)) ∧
    ∃ after, (Session.start failing).ask Queue.transport (.bucket n) =
      some (.error (.timeout ⟨.getBucket, some n⟩ (.ofSeconds 1)), after) := by
  intro script failing c n
  obtain ⟨htable, hfailure, hask⟩ := ask_classified
  constructor
  · obtain ⟨after, hafter⟩ := hask Script.transport (.start script) c (by decide)
    have htaken := (htable 409 (Api.encodeError "taken")).taken Api.sampleSettings rfl
    exact ⟨after, hafter.trans (congrArg (fun outcome => some (outcome, after)) htaken)⟩
  · obtain ⟨after, hafter⟩ := hask Queue.transport (.start failing) (.bucket n) nofun
    exact ⟨after, hafter.trans (congrArg (fun outcome => some (outcome, after)) (hfailure _ _))⟩

end Client

end BucketAdmin
