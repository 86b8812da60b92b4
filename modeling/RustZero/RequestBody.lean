import Mathlib
import RustZero.Lib.Members
import RustZero.RestStack

/-!
# Bodies of requests

`rest/src/middleware.rs`, `RequestBodyLimit`: the payload of a request is collected as far as
the limit allows, and where the first `Content-Encoding` names gzip it is expanded under the
same limit, before the handler sees it.

* The decoder of gzip is a parameter; what it reads is the first member, as `GzDecoder` does.
* `Decoded`: the handler gets the whole expansion of a payload, or the request is refused with
  the status that says why.
-/

namespace RustZero.Rest

open Lib Http
open RustZero.RoutePolicies (RequestPolicy)

/-- `RequestBodyLimit` with gzip decoding; `max_bytes as u64 + 1` bytes are taken. -/
def gzipBodyLimit (gzip : MemberFormat UInt8) (maxBodyBytes : Nat) : Gate :=
  requestBodyLimit maxBodyBytes true fun file limit => gzip.takeFirst (limit % 2 ^ 64) file

/-- The limit, by the route or by the layer. -/
def bodyLimitOf (maxBodyBytes : Nat) (request : Request) : Nat :=
  (request.policy.bind RequestPolicy.maxBodyBytes).getD maxBodyBytes

/-- `Content-Length` alone is over the limit. -/
def announcesMore (limit : Nat) (request : Request) : Bool :=
  ((request.headers.text "content-length").bind parseUsize).any (limit < ·)

/-- The bytes of a payload, and the error it ends with. -/
def contentOf : List (Except String (List UInt8)) → List UInt8 × Option String
  | [] => ([], none)
  | .error text :: _ => ([], some text)
  | .ok chunk :: rest => (chunk ++ (contentOf rest).1, (contentOf rest).2)

/-! ## Codings -/

/-- The codings that a header value lists; a value that is no text is one that is not known. -/
def codingsOf (value : HeaderValue) : List (Option String) :=
  match headerText value with
  | none => [none]
  | some text =>
      (((text.toList.splitOn ',').map fun coding =>
        String.ofList (RoutePolicies.trim coding)).filter (· != "")).map some

def isCoding (name : String) (coding : Option String) : Bool :=
  coding.any fun other => decide (Auth.EqIgnoreAsciiCase other name)

def listedCodings (headers : Headers) : List (Option String) :=
  (headers.values "content-encoding").flatMap codingsOf

/-- The codings that a body still has when one gzip is undone. -/
def otherCodings (headers : Headers) : List (Option String) :=
  ((listedCodings headers).eraseP (isCoding "gzip")).filter fun coding =>
    !isCoding "identity" coding

/-- One header with the one coding gzip. -/
def ExactlyGzip (headers : Headers) : Prop :=
  ∃ value coding, headers.values "content-encoding" = [value] ∧ codingsOf value = [coding] ∧
    isCoding "gzip" coding = true

/-! ## The claim and its condition -/

/-- What the gate does with the file that a request has for its payload. -/
def Answers (gate : Gate) (limit : Nat) (request : Request) : Expansion UInt8 → Prop
  | .complete output => ∃ admitted, gate.accept request = .ok admitted ∧
      admitted.payload = [.ok output]
  | .larger => gate.accept request = .error (payloadTooLarge limit)
  | .invalid => ∃ text, gate.accept request = .error (.answer (.plain 400 text))

/-- The request is one whose payload the decoder reads. -/
structure ReachesDecoder (maxBodyBytes : Nat) (request : Request) (file : List UInt8) :
    Prop where
  announced : announcesMore (bodyLimitOf maxBodyBytes request) request = false
  content : contentOf request.payload = (file, none)
  fits : file.length ≤ bodyLimitOf maxBodyBytes request
  named : (request.headers.text "content-encoding").any namesGzip = true

/-- The handler gets the body decoded, whole and within the limit, or the client is told why
not. -/
structure Decoded (gzip : MemberFormat UInt8) (maxBodyBytes : Nat) (request : Request) :
    Prop where
  within : ∀ admitted, (gzipBodyLimit gzip maxBodyBytes).accept request = .ok admitted →
    ∃ body, admitted.payload = [.ok body] ∧ body.length ≤ bodyLimitOf maxBodyBytes request
  oversized : bodyLimitOf maxBodyBytes request < (contentOf request.payload).1.length →
    (gzipBodyLimit gzip maxBodyBytes).accept request =
      .error (payloadTooLarge (bodyLimitOf maxBodyBytes request))
  expanded : ExactlyGzip request.headers → ∀ file, contentOf request.payload = (file, none) →
    file.length ≤ bodyLimitOf maxBodyBytes request →
      Answers (gzipBodyLimit gzip maxBodyBytes) (bodyLimitOf maxBodyBytes request) request
        (gzip.expand (bodyLimitOf maxBodyBytes request) file)
  /-- `Content-Encoding` is not removed from a body that is still encoded. -/
  stillNamed : ∀ admitted, (gzipBodyLimit gzip maxBodyBytes).accept request = .ok admitted →
    admitted.headers.containsKey "content-encoding" = false → otherCodings request.headers = []
  chunking : ∀ payload, contentOf payload = contentOf request.payload →
    (gzipBodyLimit gzip maxBodyBytes).accept { request with payload := payload } =
      (gzipBodyLimit gzip maxBodyBytes).accept request
  /-- `max_bytes as u64 + 1` does not overflow. -/
  sum : ∀ file, ReachesDecoder maxBodyBytes request file →
    bodyLimitOf maxBodyBytes request + 1 < 2 ^ 64

/-- What follows the first member expands to nothing, no other coding is listed, and
`Content-Length` is over the limit only with a body that is. -/
structure FirstMemberSuffices (gzip : MemberFormat UInt8) (maxBodyBytes : Nat)
    (request : Request) : Prop where
  silent : ExactlyGzip request.headers → ∀ file rest, ReachesDecoder maxBodyBytes request file →
    (gzip.first file).2 = some rest →
      (gzip.first file).1.length ≤ bodyLimitOf maxBodyBytes request → gzip.Silent rest
  alone : ∀ file rest, ReachesDecoder maxBodyBytes request file →
    (gzip.first file).2 = some rest →
      (gzip.first file).1.length ≤ bodyLimitOf maxBodyBytes request →
        otherCodings request.headers = []
  announced : ExactlyGzip request.headers → ∀ file, contentOf request.payload = (file, none) →
    file.length ≤ bodyLimitOf maxBodyBytes request →
      announcesMore (bodyLimitOf maxBodyBytes request) request = true →
        gzip.expand (bodyLimitOf maxBodyBytes request) file = .larger
  sum : ∀ file, ReachesDecoder maxBodyBytes request file →
    bodyLimitOf maxBodyBytes request + 1 < 2 ^ 64

section Collecting

variable {limit : Nat} {body : List UInt8}

/-- What is collected depends on the bytes alone. -/
theorem collect_eq (payload : List (Except String (List UInt8))) (fits : body.length ≤ limit) :
    collect limit payload body =
      if limit < body.length + (contentOf payload).1.length then .error .tooLarge
      else
        match (contentOf payload).2 with
        | none => .ok (body ++ (contentOf payload).1)
        | some text => .error (.error text) := by
  induction payload generalizing body with
  | nil =>
      have small : ¬limit < body.length + (contentOf []).1.length := by
        simpa [contentOf] using fits
      rw [collect, if_neg small]
      simp [contentOf]
  | cons chunk rest ih =>
      cases chunk with
      | error text =>
          have small : ¬limit < body.length + (contentOf (.error text :: rest)).1.length := by
            simpa [contentOf] using fits
          rw [collect, if_neg small]
          rfl
      | ok bytes =>
          rw [collect]
          by_cases larger : limit < body.length + bytes.length
          · have whole : limit < body.length + (contentOf (.ok bytes :: rest)).1.length := by
              simp only [contentOf, List.length_append]
              omega
            rw [if_pos larger, if_pos whole]
          · have fits' : (body ++ bytes).length ≤ limit := by
              rw [List.length_append]
              omega
            rw [if_neg larger, ih fits']
            simp only [contentOf, List.length_append, List.append_assoc, Nat.add_assoc]

end Collecting

section Accepting

variable {gzip : MemberFormat UInt8} {maxBodyBytes : Nat} {request admitted : Request}
  {file rest : List UInt8}

/-- The request as the handler gets it, with its body expanded. -/
def withExpanded (request : Request) (body : List UInt8) : Request :=
  { request with
    headers := (request.headers.remove "content-encoding").remove "content-length"
    payload := [.ok body] }

theorem accept_eq (gzip : MemberFormat UInt8) (maxBodyBytes : Nat) (request : Request) :
    (gzipBodyLimit gzip maxBodyBytes).accept request =
      if announcesMore (bodyLimitOf maxBodyBytes request) request = true then
        .error (payloadTooLarge (bodyLimitOf maxBodyBytes request))
      else if bodyLimitOf maxBodyBytes request < (contentOf request.payload).1.length then
        .error (payloadTooLarge (bodyLimitOf maxBodyBytes request))
      else
        match (contentOf request.payload).2 with
        | some _ => .error (.answer (.plain 400 "invalid request body"))
        | none =>
            if (request.headers.text "content-encoding").any namesGzip = true then
              match gzip.takeFirst ((bodyLimitOf maxBodyBytes request + 1) % 2 ^ 64)
                  (contentOf request.payload).1 with
              | none => .error (.answer (.plain 400 "invalid gzip request body"))
              | some expanded =>
                  if bodyLimitOf maxBodyBytes request < expanded.length then
                    .error (payloadTooLarge (bodyLimitOf maxBodyBytes request))
                  else .ok (withExpanded request expanded)
            else .ok { request with payload := [.ok (contentOf request.payload).1] } := by
  unfold gzipBodyLimit requestBodyLimit announcesMore bodyLimitOf
  dsimp only
  generalize (request.policy.bind RequestPolicy.maxBodyBytes).getD maxBodyBytes = limit
  have empty : ([] : List UInt8).length ≤ limit := Nat.zero_le _
  rw [collect_eq request.payload empty, List.length_nil, Nat.zero_add, List.nil_append]
  by_cases announced :
      ((request.headers.text "content-length").bind parseUsize).any (limit < ·) = true
  · rw [if_pos announced, if_pos announced]
  · rw [if_neg announced, if_neg announced]
    by_cases larger : limit < (contentOf request.payload).1.length
    · rw [if_pos larger, if_pos larger]
    · rw [if_neg larger, if_neg larger]
      cases (contentOf request.payload).2 with
      | some text => rfl
      | none => rfl

theorem accept_of_announced
    (announced : announcesMore (bodyLimitOf maxBodyBytes request) request = true) :
    (gzipBodyLimit gzip maxBodyBytes).accept request =
      .error (payloadTooLarge (bodyLimitOf maxBodyBytes request)) := by
  rw [accept_eq, if_pos announced]

theorem accept_of_oversized
    (larger : bodyLimitOf maxBodyBytes request < (contentOf request.payload).1.length) :
    (gzipBodyLimit gzip maxBodyBytes).accept request =
      .error (payloadTooLarge (bodyLimitOf maxBodyBytes request)) := by
  rw [accept_eq, if_pos larger, ite_self]

theorem accept_of_reaches (reaches : ReachesDecoder maxBodyBytes request file) :
    (gzipBodyLimit gzip maxBodyBytes).accept request =
      match gzip.takeFirst ((bodyLimitOf maxBodyBytes request + 1) % 2 ^ 64) file with
      | none => .error (.answer (.plain 400 "invalid gzip request body"))
      | some expanded =>
          if bodyLimitOf maxBodyBytes request < expanded.length then
            .error (payloadTooLarge (bodyLimitOf maxBodyBytes request))
          else .ok (withExpanded request expanded) := by
  have quiet : ¬announcesMore (bodyLimitOf maxBodyBytes request) request = true := by
    rw [reaches.announced]
    exact Bool.false_ne_true
  rw [accept_eq, if_neg quiet, reaches.content, if_neg (Nat.not_lt.mpr reaches.fits)]
  exact if_pos reaches.named

/-- What the handler gets is the payload as it is, or the decoder has read it. -/
theorem accept_ok (ok : (gzipBodyLimit gzip maxBodyBytes).accept request = .ok admitted) :
    ((contentOf request.payload).1.length ≤ bodyLimitOf maxBodyBytes request ∧
      (request.headers.text "content-encoding").any namesGzip = false ∧
      admitted = { request with payload := [.ok (contentOf request.payload).1] }) ∨
    ∃ file expanded, ReachesDecoder maxBodyBytes request file ∧
      gzip.takeFirst ((bodyLimitOf maxBodyBytes request + 1) % 2 ^ 64) file = some expanded ∧
      expanded.length ≤ bodyLimitOf maxBodyBytes request ∧
      admitted = withExpanded request expanded := by
  by_cases announced : announcesMore (bodyLimitOf maxBodyBytes request) request = true
  · cases (accept_of_announced announced).symm.trans ok
  · by_cases larger : bodyLimitOf maxBodyBytes request < (contentOf request.payload).1.length
    · cases (accept_of_oversized larger).symm.trans ok
    · have fits := Nat.le_of_not_lt larger
      rw [accept_eq, if_neg announced, if_neg larger] at ok
      cases failure : (contentOf request.payload).2 with
      | some text =>
          rw [failure] at ok
          cases ok
      | none =>
          rw [failure] at ok
          cases named : (request.headers.text "content-encoding").any namesGzip with
          | false =>
              rw [named] at ok
              cases ok
              exact .inl ⟨fits, rfl, rfl⟩
          | true =>
              have reaches : ReachesDecoder maxBodyBytes request (contentOf request.payload).1 :=
                ⟨Bool.eq_false_iff.mpr announced, Prod.ext rfl failure, fits, named⟩
              rw [named] at ok
              cases taken : gzip.takeFirst ((bodyLimitOf maxBodyBytes request + 1) % 2 ^ 64)
                  (contentOf request.payload).1 with
              | none =>
                  rw [taken] at ok
                  cases ok
              | some expanded =>
                  rw [taken] at ok
                  dsimp only at ok
                  by_cases exceeds : bodyLimitOf maxBodyBytes request < expanded.length
                  · rw [if_pos rfl, if_pos exceeds] at ok
                    cases ok
                  · rw [if_pos rfl, if_neg exceeds] at ok
                    cases ok
                    exact .inr ⟨_, expanded, reaches, taken, Nat.le_of_not_lt exceeds, rfl⟩

section Reading

variable (reaches : ReachesDecoder maxBodyBytes request file)
  (sum : bodyLimitOf maxBodyBytes request + 1 < 2 ^ 64)

include reaches sum

theorem accept_of_first_larger
    (larger : bodyLimitOf maxBodyBytes request < (gzip.first file).1.length) :
    (gzipBodyLimit gzip maxBodyBytes).accept request =
      .error (payloadTooLarge (bodyLimitOf maxBodyBytes request)) := by
  have taken : gzip.takeFirst (bodyLimitOf maxBodyBytes request + 1) file = some
      ((gzip.first file).1.take (bodyLimitOf maxBodyBytes request + 1)) := if_pos larger
  rw [accept_of_reaches reaches, Nat.mod_eq_of_lt sum, taken]
  refine if_pos ?_
  rw [List.length_take]
  omega

theorem accept_of_first_invalid
    (fits : (gzip.first file).1.length ≤ bodyLimitOf maxBodyBytes request)
    (defect : (gzip.first file).2 = none) :
    (gzipBodyLimit gzip maxBodyBytes).accept request =
      .error (.answer (.plain 400 "invalid gzip request body")) := by
  have exceeds : ¬bodyLimitOf maxBodyBytes request + 1 ≤ (gzip.first file).1.length := by omega
  have taken : gzip.takeFirst (bodyLimitOf maxBodyBytes request + 1) file = none := by
    rw [MemberFormat.takeFirst, if_neg exceeds, defect]
    rfl
  rw [accept_of_reaches reaches, Nat.mod_eq_of_lt sum, taken]

theorem accept_of_first_read
    (fits : (gzip.first file).1.length ≤ bodyLimitOf maxBodyBytes request)
    (follows : (gzip.first file).2 = some rest) :
    (gzipBodyLimit gzip maxBodyBytes).accept request =
      .ok (withExpanded request (gzip.first file).1) := by
  have exceeds : ¬bodyLimitOf maxBodyBytes request + 1 ≤ (gzip.first file).1.length := by omega
  have taken : gzip.takeFirst (bodyLimitOf maxBodyBytes request + 1) file =
      some (gzip.first file).1 := by
    rw [MemberFormat.takeFirst, if_neg exceeds, follows]
    rfl
  rw [accept_of_reaches reaches, Nat.mod_eq_of_lt sum, taken]
  exact if_neg (Nat.not_lt.mpr fits)

end Reading

/-- One header with the one coding gzip is one that names it. -/
theorem namesGzip_of_exactly (exactly : ExactlyGzip request.headers) :
    (request.headers.text "content-encoding").any namesGzip = true := by
  obtain ⟨value, coding, only, listed, gzip⟩ := exactly
  have first : request.headers.get "content-encoding" = some value := by
    rw [Headers.get_eq_head?, only]
    rfl
  rw [Headers.text, first, Option.bind_some]
  unfold codingsOf at listed
  cases text : headerText value with
  | none =>
      rw [text] at listed
      cases listed
      cases gzip
  | some line =>
      rw [text] at listed
      dsimp only at listed
      have member : coding ∈ (((line.toList.splitOn ',').map fun coding =>
          String.ofList (RoutePolicies.trim coding)).filter (· != "")).map some := by
        rw [listed]
        exact List.mem_singleton_self coding
      obtain ⟨name, kept, same⟩ := List.mem_map.mp member
      obtain ⟨part, inside, same'⟩ := List.mem_map.mp (List.mem_of_mem_filter kept)
      subst same same'
      exact List.any_eq_true.mpr ⟨part, inside, gzip⟩

theorem otherCodings_of_removed (removed : request.headers.containsKey "content-encoding" = false) :
    otherCodings request.headers = [] := by
  have none : request.headers.values "content-encoding" = [] := by
    by_contra some
    rw [(Headers.containsKey_iff _ _).mpr some] at removed
    cases removed
  rw [otherCodings, listedCodings, none]
  rfl

theorem containsKey_withExpanded (request : Request) (body : List UInt8) :
    (withExpanded request body).headers.containsKey "content-encoding" = false := by
  have none : (withExpanded request body).headers.values "content-encoding" = [] := by
    rw [withExpanded, Headers.values_remove, Headers.values_remove, if_neg (by decide), if_pos rfl]
  rw [Bool.eq_false_iff]
  intro some
  exact (Headers.containsKey_iff _ _).mp some none

theorem takeFirst_eq_some {limit : Nat} {expanded : List UInt8}
    (taken : gzip.takeFirst (limit + 1) file = some expanded) (fits : expanded.length ≤ limit) :
    expanded = (gzip.first file).1 ∧ ∃ rest, (gzip.first file).2 = some rest := by
  unfold MemberFormat.takeFirst at taken
  split at taken
  · next larger =>
      cases taken
      rw [List.length_take] at fits
      omega
  · split at taken
    · next follows =>
        cases taken
        exact ⟨rfl, Option.isSome_iff_exists.mp follows⟩
    · cases taken

end Accepting

section Claim

variable {gzip : MemberFormat UInt8} {maxBodyBytes : Nat} {request : Request}

theorem within_limit {admitted : Request}
    (ok : (gzipBodyLimit gzip maxBodyBytes).accept request = .ok admitted) :
    ∃ body, admitted.payload = [.ok body] ∧ body.length ≤ bodyLimitOf maxBodyBytes request := by
  rcases accept_ok ok with ⟨fits, _, same⟩ | ⟨_, expanded, _, _, fits, same⟩
  · exact ⟨_, by rw [same], fits⟩
  · exact ⟨expanded, by rw [same]; rfl, fits⟩

/-- The chunks of a payload make no difference. -/
theorem accept_rechunked {payload : List (Except String (List UInt8))}
    (same : contentOf payload = contentOf request.payload) :
    (gzipBodyLimit gzip maxBodyBytes).accept { request with payload := payload } =
      (gzipBodyLimit gzip maxBodyBytes).accept request := by
  rw [accept_eq, accept_eq]
  dsimp only
  rw [same]
  rfl

theorem answers_expand (sound : FirstMemberSuffices gzip maxBodyBytes request)
    (exactly : ExactlyGzip request.headers) {file : List UInt8}
    (content : contentOf request.payload = (file, none))
    (fits : file.length ≤ bodyLimitOf maxBodyBytes request) :
    Answers (gzipBodyLimit gzip maxBodyBytes) (bodyLimitOf maxBodyBytes request) request
      (gzip.expand (bodyLimitOf maxBodyBytes request) file) := by
  cases announced : announcesMore (bodyLimitOf maxBodyBytes request) request with
  | true =>
      rw [sound.announced exactly file content fits announced]
      exact accept_of_announced announced
  | false =>
      have reaches : ReachesDecoder maxBodyBytes request file :=
        ⟨announced, content, fits, namesGzip_of_exactly exactly⟩
      have sum := sound.sum file reaches
      by_cases larger : bodyLimitOf maxBodyBytes request < (gzip.first file).1.length
      · rw [MemberFormat.expand_of_larger larger]
        exact accept_of_first_larger reaches sum larger
      · have small := Nat.le_of_not_lt larger
        cases follows : (gzip.first file).2 with
        | none =>
            rw [MemberFormat.expand_of_invalid small follows]
            exact ⟨_, accept_of_first_invalid reaches sum small follows⟩
        | some rest =>
            have silent := sound.silent exactly file rest reaches follows small
            rw [(MemberFormat.expand_eq_complete_iff small follows).mpr silent]
            exact ⟨_, accept_of_first_read reaches sum small follows, rfl⟩

/-- An answer for a payload that is expanded as a whole is none for another one. -/
theorem expand_of_answers {file output : List UInt8} {admitted : Request}
    (answers : Answers (gzipBodyLimit gzip maxBodyBytes) (bodyLimitOf maxBodyBytes request) request
      (gzip.expand (bodyLimitOf maxBodyBytes request) file))
    (ok : (gzipBodyLimit gzip maxBodyBytes).accept request = .ok admitted)
    (body : admitted.payload = [.ok output]) :
    gzip.expand (bodyLimitOf maxBodyBytes request) file = .complete output := by
  cases whole : gzip.expand (bodyLimitOf maxBodyBytes request) file with
  | complete other =>
      rw [whole] at answers
      obtain ⟨admitted', ok', body'⟩ := answers
      cases ok.symm.trans ok'
      cases body.symm.trans body'
      rfl
  | larger =>
      rw [whole] at answers
      cases ok.symm.trans answers
  | invalid =>
      rw [whole] at answers
      obtain ⟨text, refused⟩ := answers
      cases ok.symm.trans refused

/-- When the handler gets the body of a request decoded and within the limit. -/
theorem decoded_iff (gzip : MemberFormat UInt8) (maxBodyBytes : Nat) (request : Request) :
    Decoded gzip maxBodyBytes request ↔ FirstMemberSuffices gzip maxBodyBytes request := by
  constructor
  · intro decoded
    refine ⟨?_, ?_, ?_, decoded.sum⟩
    · intro exactly file rest reaches follows small
      have ok := accept_of_first_read reaches (decoded.sum file reaches) small follows
      have whole := expand_of_answers (decoded.expanded exactly file reaches.content reaches.fits)
        ok rfl
      exact (MemberFormat.expand_eq_complete_iff small follows).mp whole
    · intro file rest reaches follows small
      have ok := accept_of_first_read reaches (decoded.sum file reaches) small follows
      exact decoded.stillNamed _ ok (containsKey_withExpanded request _)
    · intro exactly file content fits announced
      have answers := decoded.expanded exactly file content fits
      have refused : (gzipBodyLimit gzip maxBodyBytes).accept request = _ :=
        accept_of_announced announced
      cases whole : gzip.expand (bodyLimitOf maxBodyBytes request) file with
      | complete output =>
          rw [whole] at answers
          obtain ⟨admitted, ok, _⟩ := answers
          cases refused.symm.trans ok
      | larger => rfl
      | invalid =>
          rw [whole] at answers
          obtain ⟨text, other⟩ := answers
          cases refused.symm.trans other
  · intro sound
    refine ⟨fun _ => within_limit, accept_of_oversized, ?_, ?_, fun _ => accept_rechunked,
      sound.sum⟩
    · intro exactly file content fits
      exact answers_expand sound exactly content fits
    · intro admitted ok removed
      rcases accept_ok ok with ⟨_, _, same⟩ | ⟨file, expanded, reaches, taken, fits, same⟩
      · rw [same] at removed
        exact otherCodings_of_removed removed
      · rw [Nat.mod_eq_of_lt (sound.sum file reaches)] at taken
        obtain ⟨whole, rest, follows⟩ := takeFirst_eq_some taken fits
        exact sound.alone file rest reaches follows (whole ▸ fits)

end Claim

/-- A gzip member with the text `a` in a stored block. -/
def storedMember : List UInt8 :=
  [31, 139, 8, 0, 0, 0, 0, 0, 0, 255, 1, 1, 0, 254, 255, 97, 67, 190, 183, 232, 1, 0, 0, 0]

/-- What gzip makes of files of that member. -/
def storedGzip : MemberFormat UInt8 where
  first file :=
    if storedMember.isPrefixOf file then ([97], some (file.drop storedMember.length))
    else ([], none)
  shorter := by
    intro file rest follows
    split at follows
    · next leads =>
        cases follows
        have longer := (List.isPrefixOf_iff_prefix.mp leads).length_le
        have some : storedMember.length = 24 := rfl
        rw [List.length_drop]
        omega
    · cases follows

def uploadOf (encoding : String) (file : List UInt8) : Request where
  method := "POST"
  path := "/"
  uri := "/"
  pattern := none
  headers := [("content-encoding", headerValue encoding)]
  payload := [.ok file]
  policy := none
  requestId := none
  trace := none

theorem reaches_upload {encoding : String} {file : List UInt8} {maxBodyBytes : Nat}
    (named : (headerText (headerValue encoding)).any namesGzip = true)
    (fits : file.length ≤ maxBodyBytes) :
    ReachesDecoder maxBodyBytes (uploadOf encoding file) file where
  announced := rfl
  content := Prod.ext (List.append_nil file) rfl
  fits := fits
  named := named

/-- Of two members the second is lost; what is still deflated loses its `Content-Encoding`; the
greatest limit overflows. -/
theorem second_member_is_lost :
    ¬Decoded storedGzip 100 (uploadOf "gzip" (storedMember ++ storedMember)) ∧
      ¬Decoded storedGzip 100 (uploadOf "deflate, gzip" storedMember) ∧
      ¬Decoded storedGzip (2 ^ 64 - 1) (uploadOf "gzip" storedMember) := by
  have named : (headerText (headerValue "gzip")).any namesGzip = true := by decide +kernel
  refine ⟨?_, ?_, ?_⟩
  · intro decoded
    have reaches : ReachesDecoder 100 _ _ := reaches_upload named
      (by decide : (storedMember ++ storedMember).length ≤ 100)
    have exactly : ExactlyGzip (uploadOf "gzip" (storedMember ++ storedMember)).headers :=
      ⟨headerValue "gzip", some "gzip", rfl, by decide +kernel, by decide +kernel⟩
    have follows : (storedGzip.first (storedMember ++ storedMember)).2 = some storedMember := rfl
    have small : (storedGzip.first (storedMember ++ storedMember)).1.length ≤ 100 := by decide
    have ok := accept_of_first_read reaches (decoded.sum _ reaches) small follows
    have whole := expand_of_answers (decoded.expanded exactly _ reaches.content reaches.fits) ok rfl
    have silent := (MemberFormat.expand_eq_complete_iff small follows).mp whole
    cases silent with
    | cons nothing _ _ => cases nothing
  · intro decoded
    have listed : (headerText (headerValue "deflate, gzip")).any namesGzip = true := by
      decide +kernel
    have reaches : ReachesDecoder 100 _ _ :=
      reaches_upload listed (by decide : storedMember.length ≤ 100)
    have follows : (storedGzip.first storedMember).2 = some [] := rfl
    have ok := accept_of_first_read reaches (decoded.sum _ reaches) (by decide) follows
    have none := decoded.stillNamed _ ok (containsKey_withExpanded _ _)
    have some :
        otherCodings (uploadOf "deflate, gzip" storedMember).headers = [some "deflate"] := by
      decide +kernel
    rw [some] at none
    cases none
  · intro decoded
    have reaches : ReachesDecoder (2 ^ 64 - 1) _ _ :=
      reaches_upload named (by decide : storedMember.length ≤ 2 ^ 64 - 1)
    exact absurd (decoded.sum _ reaches) (by decide)

end RustZero.Rest
