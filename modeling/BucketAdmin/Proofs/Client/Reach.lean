import BucketAdmin.Client.Web
import BucketAdmin.Proofs.Api.Route
import BucketAdmin.Proofs.Client.Traffic
import BucketAdmin.Proofs.Http.Uri

/-!
# Which configurations reach the routes

A configuration that is valid has an endpoint with a scheme and an authority; what may follow the
authority is not looked at. The URL of a call is the endpoint, less its last slashes, and the path
of the route. So it keeps the authority, and the route is its path exactly where nothing but
slashes follows the authority in the endpoint (`Config.Plain`): a path there stays in front of the
route, a query takes the route in, a fragment drops it. Besides, the URL must not be too long.
`reaches_iff` says which valid configurations reach all routes.
-/

namespace BucketAdmin.Client

open Api (Endpoint Method trimSlashes bucketsPath clusterPath)
open Bucket (Name Settings isNameChar)
open Http (Uri)
open Http.Uri (Anatomy isPathChar pathAndQuery maxLength)

/-- The endpoint is a scheme and an authority, and no more than slashes after them. -/
def Config.Plain (c : Config) : Prop :=
  ∃ a : Anatomy, a.Cut ∧ c.endpoint.toList = a.chars ∧ ∀ x ∈ a.rest, x = '/'

/-- The web request of a call goes to the authority of an endpoint, with the path of its route, no
query and the body of the call, and the server finds the route of the call in it. -/
structure Web.Reaches (w : Web) (endpoint : Uri) (c : Call) : Prop where
  built : ∃ uri request, w.build c.request = .ok (uri, request) ∧
    uri.scheme = endpoint.scheme ∧ uri.authority = endpoint.authority ∧
    uri.path = c.endpoint.path ∧ uri.query = none ∧
    request.method = c.endpoint.method.text ∧ request.path = uri.path ∧
    request.query = uri.query ∧ request.body = c.body ∧ Server.route request = .ok c.endpoint

/-! ## The paths of routes -/

theorem isPathChar_of_isNameChar {c : Char} (h : isNameChar c = true) : isPathChar c = true := by
  by_cases hlt : c.toNat < 0x80
  · have hall : ∀ n < 0x80,
        isNameChar (Char.ofNat n) = true → isPathChar (Char.ofNat n) = true := by
      decide
    have hc := hall c.toNat hlt
    rw [Char.ofNat_toNat] at hc
    exact hc h
  · have hge : 0x80 ≤ c.toNat := Nat.le_of_not_lt hlt
    simp [isPathChar, hge]

theorem isPathChar_path (e : Endpoint) : ∀ c ∈ e.path.toList, isPathChar c = true := by
  have hnamed : ∀ n : Name, ∀ c ∈ (bucketsPath ++ "/" ++ n.text).toList, isPathChar c = true := by
    intro n c hc
    rw [String.toList_append] at hc
    rcases List.mem_append.mp hc with hc | hc
    · have hall : ∀ c ∈ (bucketsPath ++ "/").toList, isPathChar c = true :=
        List.all_eq_true.mp rfl
      exact hall c hc
    · exact isPathChar_of_isNameChar (List.all_eq_true.mp n.valid.chars c hc)
  cases e with
  | clusterInfo | listBuckets | createBucket => exact List.all_eq_true.mp rfl
  | getBucket n | updateBucket n | deleteBucket n => exact hnamed n

theorem head?_path (e : Endpoint) : e.path.toList.head? = some '/' := by
  cases e with
  | clusterInfo | listBuckets | createBucket => rfl
  | getBucket n | updateBucket n | deleteBucket n =>
    rw [Endpoint.path, String.toList_append, String.toList_append]
    rfl

/-- The longest path of a route, in bytes: that of a bucket with a name of 100 bytes. -/
def maxPathLength : Nat := 123

theorem encode_append (s t : String) :
    Utf8.encode (s ++ t) = Utf8.encode s ++ Utf8.encode t := by
  rw [Utf8.encode, String.toList_append, List.flatMap_append]
  rfl

theorem length_bucketPath (n : Name) :
    (Utf8.encode (bucketsPath ++ "/" ++ n.text)).length = 23 + n.bytes.length := by
  rw [encode_append, List.length_append]
  rfl

theorem length_path_le (e : Endpoint) : (Utf8.encode e.path).length ≤ maxPathLength := by
  cases e with
  | clusterInfo | listBuckets | createBucket => decide
  | getBucket n | updateBucket n | deleteBucket n =>
    have hname : n.bytes.length ≤ 100 := n.valid.length_le
    rw [Endpoint.path, length_bucketPath, maxPathLength]
    omega

theorem le_length_path (e : Endpoint) : 14 ≤ (Utf8.encode e.path).length := by
  cases e with
  | clusterInfo | listBuckets | createBucket => decide
  | getBucket n | updateBucket n | deleteBucket n =>
    rw [Endpoint.path, length_bucketPath]
    omega

/-- A name that is as long as a name may be. -/
def longName : Name where
  text := String.ofList (List.replicate 100 'n')
  valid := ⟨by decide, by decide, by decide⟩

theorem length_path_longName :
    (Utf8.encode (Endpoint.getBucket longName).path).length = maxPathLength := by
  rw [Endpoint.path, length_bucketPath]
  decide

/-! ## The URL of a call -/

section Url

variable {c : Config} {a : Anatomy} {uri : Uri} {call : Call}

theorem Config.validate_eq_ok (h : c.validate = .ok ()) :
    ∃ uri, Uri.parse c.endpoint = .ok uri ∧ uri.scheme = some "http" ∧ uri.authority ≠ none := by
  unfold Config.validate at h
  split at h
  · cases h
  · next uri huri =>
    split at h
    · cases h
    · next hscheme =>
      split at h
      · cases h
      · next hauthority => exact ⟨uri, huri, not_not.mp hscheme, hauthority⟩

/-- What stays of an endpoint after its authority, without the last slashes. -/
def tail (a : Anatomy) : List Char := a.rest.rdropWhile (· == '/')

theorem Config.plain_iff (ha : a.Cut) (htext : c.endpoint.toList = a.chars) :
    c.Plain ↔ tail a = [] := by
  rw [tail, List.rdropWhile_eq_nil_iff]
  constructor
  · rintro ⟨b, hb, hchars, hslashes⟩ x hx
    rw [ha.rest_eq hb (htext.symm.trans hchars)] at hx
    exact beq_iff_eq.mpr (hslashes x hx)
  · intro hslashes
    exact ⟨a, ha, htext, fun x hx => beq_iff_eq.mp (hslashes x hx)⟩

/-- The URL keeps the scheme and the authority of the endpoint, and the rest of it is read by
itself. -/
theorem parse_url (ha : a.Cut) (htext : c.endpoint.toList = a.chars)
    (huri : Uri.parse c.endpoint = .ok uri) (e : Endpoint) :
    Uri.parse (Web.url ⟨trimSlashes c.endpoint⟩ e) =
      if maxLength < (Utf8.encode (Web.url ⟨trimSlashes c.endpoint⟩ e)).length then .error .tooLong
      else (pathAndQuery (tail a ++ e.path.toList)).map fun parts =>
        ⟨uri.scheme, uri.authority, parts.1, parts.2⟩ := by
  refine ha.parse_followedBy htext huri (ha.routed (head?_path e)) ?_
  rw [Web.url, String.toList_append, Api.toList_trimSlashes, htext,
    ha.rdropWhile_chars (ha.authority_ne_nil htext huri)]
  simp only [Anatomy.chars, Anatomy.followedBy, tail, List.append_assoc]

theorem build_eq_ok {w : Web} (h : Uri.parse (w.url call.endpoint) = .ok uri) :
    ∃ request, w.build call.request = .ok (uri, request) ∧
      request.method = call.endpoint.method.text ∧ request.path = uri.path ∧
      request.query = uri.query ∧ request.body = call.body := by
  simp only [Web.build, Call.endpoint_request, mapError_ok, ok_bind, h]
  exact ⟨_, rfl, rfl, rfl, rfl, rfl⟩

theorem parse_of_build {w : Web} {request : Http.Request}
    (h : w.build call.request = .ok (uri, request)) :
    Uri.parse (w.url call.endpoint) = .ok uri := by
  rw [Web.build, Call.endpoint_request, mapError_ok, ok_bind] at h
  obtain ⟨uri', huri, h⟩ := bind_eq_ok.mp h
  cases h
  exact mapError_eq_ok.mp huri

/-- A call reaches its route where its URL is short enough and nothing of the endpoint mixes with
the path of the route. -/
theorem reaches_iff_path (ha : a.Cut) (htext : c.endpoint.toList = a.chars)
    (huri : Uri.parse c.endpoint = .ok uri) (call : Call) :
    Web.Reaches ⟨trimSlashes c.endpoint⟩ uri call ↔
      (Utf8.encode (Web.url ⟨trimSlashes c.endpoint⟩ call.endpoint)).length ≤ maxLength ∧
        pathAndQuery (tail a ++ call.endpoint.path.toList) = .ok (call.endpoint.path, none) := by
  have hparse := parse_url ha htext huri call.endpoint
  constructor
  · rintro ⟨goal, request, hbuild, -, -, hpath, hquery, -⟩
    rw [parse_of_build hbuild] at hparse
    split at hparse
    · cases hparse
    · next hlength =>
      obtain ⟨⟨path, query⟩, hparts, hgoal⟩ := map_eq_ok.mp hparse.symm
      subst hgoal
      obtain rfl : path = call.endpoint.path := hpath
      obtain rfl : query = none := hquery
      exact ⟨Nat.le_of_not_lt hlength, hparts⟩
  · rintro ⟨hlength, hparts⟩
    rw [if_neg (Nat.not_lt.mpr hlength), hparts] at hparse
    obtain ⟨request, hbuild, hmethod, hpath, hquery, hbody⟩ := build_eq_ok hparse
    have hroute : Server.route request = .ok call.endpoint := by
      rw [Server.route, hmethod, hpath, Method.parse_text, ok_bind]
      exact Endpoint.parse_path call.endpoint
    exact ⟨_, request, hbuild, rfl, rfl, rfl, rfl, hmethod, hpath, hquery, hbody, hroute⟩

end Url

/-! ## Which configurations reach all routes -/

section Reach

variable {c : Config} {a : Anatomy} {uri : Uri} {rest : List Char}

theorem pathAndQuery_path (e : Endpoint) :
    pathAndQuery e.path.toList = .ok (e.path, none) := by
  refine Uri.pathAndQuery_of_isPathChar (fun hnil => ?_) (isPathChar_path e)
  have hhead := head?_path e
  rw [hnil] at hhead
  cases hhead

/-- What stands before two routes and leaves both as they are is nothing: a fragment would make them
one, anything else would stay in front of them. -/
theorem eq_nil_of_pathAndQuery
    (h : ∀ e : Endpoint, e = .clusterInfo ∨ e = .listBuckets →
      pathAndQuery (rest ++ e.path.toList) = .ok (e.path, none)) : rest = [] := by
  have hpath : ∀ e : Endpoint, e = .clusterInfo ∨ e = .listBuckets →
      e.path.toList = (rest ++ e.path.toList).takeWhile (· ≠ '#') := fun e he =>
    Uri.path_of_pathAndQuery (h e he) (e.path_ne (by decide) (by decide) (by decide))
  have hinfo := hpath .clusterInfo (.inl rfl)
  by_cases hfragment : ∀ x ∈ rest, decide (x ≠ '#') = true
  · rw [List.takeWhile_append_of_pos hfragment,
      Uri.takeWhile_fragment (isPathChar_path .clusterInfo)] at hinfo
    exact List.self_eq_append_left.mp hinfo
  · have hcut : ¬(rest.takeWhile (· ≠ '#')).length = rest.length := by
      intro hlength
      have hall := (List.takeWhile_prefix (fun x => decide (x ≠ '#'))).eq_of_length hlength
      exact hfragment (List.takeWhile_eq_self_iff.mp hall)
    have hlist := hpath .listBuckets (.inr rfl)
    rw [List.takeWhile_append, if_neg hcut] at hinfo hlist
    exact absurd (hinfo.trans hlist.symm) (by decide)

theorem reaches_iff_length (ha : a.Cut) (htext : c.endpoint.toList = a.chars)
    (huri : Uri.parse c.endpoint = .ok uri) (hplain : tail a = []) (call : Call) :
    Web.Reaches ⟨trimSlashes c.endpoint⟩ uri call ↔
      (Utf8.encode (Web.url ⟨trimSlashes c.endpoint⟩ call.endpoint)).length ≤ maxLength := by
  rw [reaches_iff_path ha htext huri, hplain, List.nil_append]
  exact and_iff_left (pathAndQuery_path call.endpoint)

theorem length_url (w : Web) (e : Endpoint) :
    (Utf8.encode (w.url e)).length =
      (Utf8.encode w.baseUrl).length + (Utf8.encode e.path).length := by
  rw [Web.url, encode_append, List.length_append]

/-- **Which valid configurations reach the routes.** All calls reach theirs exactly where the
endpoint is plain and leaves room for the longest path. Where it is plain, a call reaches its route
exactly if its own URL is not too long. -/
theorem reaches_iff (c : Config) (hvalid : c.validate = .ok ()) :
    ∃ w uri, Web.ofConfig c = .ok w ∧ Uri.parse c.endpoint = .ok uri ∧
      uri.scheme = some "http" ∧ uri.authority ≠ none ∧
      ((∀ call, w.Reaches uri call) ↔
        c.Plain ∧ (Utf8.encode w.baseUrl).length + maxPathLength ≤ maxLength) ∧
      (c.Plain → ∀ call,
        w.Reaches uri call ↔ (Utf8.encode (w.url call.endpoint)).length ≤ maxLength) := by
  obtain ⟨uri, huri, hscheme, hauthority⟩ := Config.validate_eq_ok hvalid
  have hsome : uri.scheme ≠ none := by
    rw [hscheme]
    exact Option.some_ne_none _
  obtain ⟨a, ha, htext⟩ := Uri.Anatomy.exists_cut huri hsome
  have hplain := Config.plain_iff ha htext
  have hreach := reaches_iff_path ha htext huri
  have hshort := reaches_iff_length ha htext huri
  have hconfig : Web.ofConfig c = .ok ⟨trimSlashes c.endpoint⟩ := by
    rw [Web.ofConfig, hvalid]
    rfl
  refine ⟨⟨trimSlashes c.endpoint⟩, uri, hconfig, huri, hscheme, hauthority, ⟨fun hall => ?_, ?_⟩,
    fun hp => hshort (hplain.mp hp)⟩
  · have hnil : tail a = [] := by
      refine eq_nil_of_pathAndQuery ?_
      rintro e (rfl | rfl)
      · exact ((hreach .info).mp (hall _)).2
      · exact ((hreach .buckets).mp (hall _)).2
    refine ⟨hplain.mpr hnil, ?_⟩
    have hlong := (hshort hnil (.bucket longName)).mp (hall _)
    rwa [length_url, Call.endpoint, length_path_longName] at hlong
  · rintro ⟨hp, hlength⟩ call
    refine (hshort (hplain.mp hp) call).mpr ?_
    have hle := length_path_le call.endpoint
    rw [length_url]
    omega

/-- An endpoint with all that an authority may hold, and slashes after it. -/
def ornateConfig : Config := { endpoint := "HTTP://admin:p%20w@[::1]:8091///" }

theorem plain_ornateConfig : ornateConfig.Plain := by
  refine ⟨⟨"HTTP".toList, "admin:p%20w@[::1]:8091".toList, List.replicate 3 '/'⟩,
    ⟨List.all_eq_true.mp rfl, ?_, ?_⟩, rfl, fun x => List.eq_of_mem_replicate⟩
  · intro c hc
    have hall := List.all_eq_true (p := fun c => !Uri.endsAuthority c).mp rfl c hc
    simpa using hall
  · rintro c ⟨⟩
    rfl

theorem reaches_iff_ornateConfig :
    ornateConfig.validate = .ok () ∧ ornateConfig.Plain ∧
      ∃ w uri, Web.ofConfig ornateConfig = .ok w ∧ w.baseUrl = "HTTP://admin:p%20w@[::1]:8091" ∧
        Uri.parse ornateConfig.endpoint = .ok uri ∧ ∀ call, w.Reaches uri call := by
  have hvalid : ornateConfig.validate = .ok () := rfl
  obtain ⟨w, uri, hconfig, huri, -, -, hiff, -⟩ := reaches_iff ornateConfig hvalid
  obtain rfl : ⟨"HTTP://admin:p%20w@[::1]:8091"⟩ = w := Except.ok.inj hconfig
  exact ⟨hvalid, plain_ornateConfig, _, uri, hconfig, rfl, huri,
    hiff.mpr ⟨plain_ornateConfig, by decide⟩⟩

/-! ## Valid configurations that do not -/

/-- A host of so many letters. -/
def longHost (k : Nat) : Config := { endpoint := "http://" ++ String.ofList (List.replicate k 'h') }

theorem isAuthority_replicate (k : Nat) : Uri.isAuthority (List.replicate k 'h') = true := by
  have hstays : (List.replicate k 'h').foldlM Uri.Sighting.next {} = some {} := by
    induction k with
    | zero => rfl
    | succ k ih => exact ih
  simp only [Uri.isAuthority, hstays]
  rfl

theorem length_longHost (k : Nat) : (Utf8.encode (longHost k).endpoint).length = 7 + k := by
  have hletters : (Utf8.encode (String.ofList (List.replicate k 'h'))).length = k := by
    rw [Utf8.encode, String.toList_ofList]
    induction k with
    | zero => rfl
    | succ k ih =>
      rw [List.replicate_succ, List.flatMap_cons, List.length_append, ih, Nat.add_comm]
      rfl
  rw [longHost, encode_append, List.length_append, hletters]
  rfl

/-- The pieces of such an endpoint. -/
def longHostAnatomy (k : Nat) : Anatomy := ⟨"http".toList, List.replicate k 'h', []⟩

theorem cut_longHost (k : Nat) : (longHostAnatomy k).Cut where
  scheme := List.all_eq_true.mp rfl
  authority := by
    intro c hc
    rw [List.eq_of_mem_replicate hc]
    rfl
  rest := nofun

theorem toList_longHost (k : Nat) : (longHost k).endpoint.toList = (longHostAnatomy k).chars := by
  have hletters : (String.ofList (List.replicate k 'h')).toList = List.replicate k 'h' :=
    String.toList_ofList
  rw [longHost, String.toList_append, hletters, Anatomy.chars, longHostAnatomy, List.append_nil]
  rfl

theorem parse_longHost {k : Nat} (hpos : 0 < k) (hle : 7 + k ≤ maxLength) :
    Uri.parse (longHost k).endpoint =
      .ok ⟨some "http", some (String.ofList (List.replicate k 'h')), "/", none⟩ := by
  have hname : Anatomy.schemeName (longHostAnatomy k).scheme = .ok "http" := rfl
  have hauthority : ¬(!Uri.isAuthority (longHostAnatomy k).authority ||
      (longHostAnatomy k).authority.isEmpty) = true := by
    cases k with
    | zero => cases hpos
    | succ k => simp [longHostAnatomy, isAuthority_replicate]
  rw [(cut_longHost k).parse_eq (toList_longHost k), length_longHost,
    if_neg (Nat.not_lt.mpr hle), hname, ok_bind, if_neg hauthority]
  rfl

theorem validate_longHost {k : Nat} (hpos : 0 < k) (hle : 7 + k ≤ maxLength) :
    (longHost k).validate = .ok () := by
  rw [Config.validate, parse_longHost hpos hle]
  rfl

/-- No URL of a call has room behind such a host. -/
theorem build_longHost {k : Nat} (hpos : 0 < k) (hle : 7 + k ≤ maxLength)
    (hlong : maxLength < 7 + k + 14) (call : Call) :
    Web.build ⟨trimSlashes (longHost k).endpoint⟩ call.request = .error (.uri .tooLong) := by
  have hbase : trimSlashes (longHost k).endpoint = (longHost k).endpoint := by
    refine Api.trimSlashes_of_append ?_ ?_
    · rw [String.toList_ofList]
      exact List.ne_nil_of_length_pos (by rwa [List.length_replicate])
    · intro c hc
      rw [String.toList_ofList] at hc
      rw [List.eq_of_mem_replicate hc]
      decide
  have hurl : maxLength <
      (Utf8.encode (Web.url ⟨trimSlashes (longHost k).endpoint⟩ call.endpoint)).length := by
    have hpath := le_length_path call.endpoint
    rw [length_url, hbase, length_longHost]
    omega
  have hparse := parse_url (cut_longHost k) (toList_longHost k) (parse_longHost hpos hle)
    call.endpoint
  rw [if_pos hurl] at hparse
  rw [Web.build, Call.endpoint_request, mapError_ok, ok_bind, hparse]
  rfl

/-- The configuration with this endpoint is valid, but the removal of a bucket goes elsewhere, where
the server finds no route. -/
def Strays (endpoint : String) (goal : Uri) : Prop :=
  Config.validate { endpoint } = .ok () ∧
    ∃ w request fault, Web.ofConfig { endpoint } = .ok w ∧
      w.build (Call.removeBucket Api.sampleSettings.name).request = .ok (goal, request) ∧
      Server.route request = .error fault

/-- A query takes the route in, a fragment drops it, and a path stays in front of it. A host may be
too long for any URL. -/
theorem valid_not_reached :
    Strays "http://h?x" ⟨some "http", some "h", "/", some "x/pools/default/buckets/c%-_.1"⟩ ∧
      Strays "http://h#x" ⟨some "http", some "h", "/", none⟩ ∧
      Strays "http://h/x" ⟨some "http", some "h", "/x/pools/default/buckets/c%-_.1", none⟩ ∧
      (longHost 65527).validate = .ok () ∧
        ∀ call : Call, Web.build ⟨trimSlashes (longHost 65527).endpoint⟩ call.request =
          .error (.uri .tooLong) := by
  refine ⟨⟨rfl, _, _, _, rfl, rfl, rfl⟩, ⟨rfl, _, _, _, rfl, rfl, rfl⟩,
    ⟨rfl, _, _, _, rfl, rfl, rfl⟩, validate_longHost (by decide) (by decide), ?_⟩
  exact build_longHost (by decide) (by decide) (by decide)

end Reach

end BucketAdmin.Client
