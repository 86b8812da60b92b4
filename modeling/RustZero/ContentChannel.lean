import RustZero.ContentEncryption
import RustZero.Lib.Lts
import RustZero.RequestBody

/-!
# Encrypted content as a channel

The middleware of `rest/src/content_encryption.rs` between clients that hold keys and an
application, over a network that may change, repeat and reorder requests and responses.  The
middleware is the gate of the REST stack with the envelopes of `ContentEncryptionKey`.

* Keys are retained and rotated: requests may use any key of the provider, responses use the
  current one.
* `Network` is what is relied on besides the ideal cipher: nobody offers an envelope before it was
  sealed.
* `channel_authentic`: what a handler is called with was sealed for this method and Uri, or is
  empty, and what a client accepts is what a handler answered to such a request.
* `exchange_delivers`: an exchange that is left alone delivers both bodies.
-/

namespace RustZero.ContentEncryption

open Lib Http

/-! ## Providers -/

/-- `ContentKeyProvider`. -/
structure Provider where
  currentKey : Option ContentEncryptionKey
  key : String → Option ContentEncryptionKey

structure StaticContentKeyProvider where
  currentId : String
  keys : List (String × ContentEncryptionKey)

namespace StaticContentKeyProvider

def new (current : ContentEncryptionKey) : StaticContentKeyProvider :=
  ⟨current.id, [(current.id, current)]⟩

def withDecryptionKey (provider : StaticContentKeyProvider) (key : ContentEncryptionKey) :
    Except ContentEncryptionError StaticContentKeyProvider :=
  if (provider.keys.lookup key.id).isSome then .error .duplicateKeyId
  else .ok { provider with keys := (key.id, key) :: provider.keys }

def provider (keys : StaticContentKeyProvider) : Provider :=
  ⟨keys.keys.lookup keys.currentId, fun id => keys.keys.lookup id⟩

/-- The provider has these keys, and the first is current. -/
structure Holds (provider : StaticContentKeyProvider) (current : ContentEncryptionKey)
    (retained : List ContentEncryptionKey) : Prop where
  answers : provider.provider.currentKey = some current
  all : ∀ key ∈ current :: retained, provider.provider.key key.id = some key

theorem holds_new (current : ContentEncryptionKey) : (new current).Holds current [] := by
  have found : (new current).keys.lookup current.id = some current := by
    rw [new, List.lookup_cons_self]
  refine ⟨found, ?_⟩
  intro key member
  rw [List.mem_singleton] at member
  rw [member]
  exact found

theorem Holds.retain {provider next : StaticContentKeyProvider} {current key : ContentEncryptionKey}
    {retained : List ContentEncryptionKey} (holds : provider.Holds current retained)
    (added : provider.withDecryptionKey key = .ok next) :
    next.Holds current (key :: retained) := by
  unfold withDecryptionKey at added
  split at added
  case isTrue => cases added
  case isFalse fresh =>
    cases added
    have kept {id : String} {old : ContentEncryptionKey}
        (found : provider.keys.lookup id = some old) :
        List.lookup id ((key.id, key) :: provider.keys) = some old := by
      have other : (id == key.id) = false := by
        rw [beq_eq_false_iff_ne]
        rintro rfl
        rw [found] at fresh
        exact fresh rfl
      rw [List.lookup_cons, other]
      exact found
    refine ⟨kept holds.answers, ?_⟩
    intro old member
    rcases List.mem_cons.mp member with rfl | member
    · exact kept (holds.all _ List.mem_cons_self)
    rcases List.mem_cons.mp member with rfl | member
    · exact List.lookup_cons_self
    · exact kept (holds.all _ (List.mem_cons_of_mem _ member))

/-- A chain of `with_decryption_key`. -/
theorem holds_of_retained {provider : StaticContentKeyProvider} {current : ContentEncryptionKey}
    {retained : List ContentEncryptionKey}
    (built : retained.foldlM withDecryptionKey (new current) = .ok provider) :
    provider.Holds current retained.reverse := by
  induction retained using List.reverseRecOn generalizing provider with
  | nil =>
      cases built
      exact holds_new current
  | append_singleton retained key ih =>
      rw [List.foldlM_append] at built
      obtain ⟨mid, before, last⟩ := bind_eq_ok built
      rw [List.reverse_append]
      obtain ⟨next, added, same⟩ := bind_eq_ok last
      cases same
      exact (ih before).retain added

end StaticContentKeyProvider

/-! ## The gate over the envelopes -/

def Uri.ofText (text : String) (noNul : '\x00' ∉ text.toList) : Uri :=
  ⟨⟨none, none, text, none⟩, by simpa [UriParts.text, UriParts.origin, UriParts.pathAndQuery]⟩

@[simp] theorem Uri.text_ofText (text : String) (noNul : '\x00' ∉ text.toList) :
    (Uri.ofText text noNul).text = text := by
  simp [Uri.ofText, UriParts.text, UriParts.origin, UriParts.pathAndQuery]

/-- The direction of a request to the gate, or of the response to it; methods and Uris of `http`
have no zero characters. -/
def directionOf (status : Option Nat) (method uri : String) : Option Direction :=
  if noNul : '\x00' ∉ method.toList ∧ '\x00' ∉ uri.toList then
    some (.of status ⟨method, noNul.1⟩ (.ofText uri noNul.2))
  else none

def forget (key : ContentEncryptionKey) : Rest.ContentEncryptionKey :=
  ⟨key.id, key.bytes⟩

def restore (key : Rest.ContentEncryptionKey) : Option ContentEncryptionKey :=
  if valid : isKeyId key.id = true ∧ key.bytes.length = 32 then
    some ⟨key.id, key.bytes, valid.1, valid.2⟩
  else none

@[simp] theorem restore_forget (key : ContentEncryptionKey) : restore (forget key) = some key :=
  dif_pos ⟨key.named, key.length⟩

/-- The provider of the gate, with what the random source gives; `decrypt_returns` says that
opening does not panic. -/
def Provider.rest (crypto : Crypto) (provider : Provider) (random : Option Nonce) :
    Rest.ContentKeyProvider where
  currentKey := provider.currentKey.map forget
  key := fun id => (provider.key id).map forget
  decryptRequest := fun key method uri encoded => do
    let key ← restore key
    let direction ← directionOf none method uri
    let result ← direction.decrypt crypto key encoded
    result.toOption
  encryptResponse := fun key method uri status plaintext => do
    let key ← restore key
    let direction ← directionOf (some status) method uri
    (direction.encrypt crypto key random plaintext).toOption

structure Limits where
  request : Nat
  response : Nat

def Provider.gate (crypto : Crypto) (limits : Limits) (provider : Provider)
    (random : Option Nonce) : Rest.Gate :=
  Rest.ContentEncryption.gate ⟨some (provider.rest crypto random), limits.request, limits.response⟩

/-! ## The channel -/

/-- A body that somebody sealed. -/
structure Made where
  key : ContentEncryptionKey
  direction : Direction
  nonce : Nonce
  plaintext : Bytes

/-- A call of the application, and what it answered. -/
structure Handled where
  request : Rest.Request
  answer : Option Rest.Response

/-- What a client took for the body of a response. -/
structure Accepted where
  method : Method
  uri : Uri
  status : Nat
  body : Bytes

structure State where
  provider : Provider
  made : List Made
  handled : List Handled
  accepted : List Accepted

inductive Action where
  | rotate (provider : Provider)
  /-- A client seals a request. -/
  | send (key : ContentEncryptionKey) (method : Method) (uri : Uri) (nonce : Nonce)
      (plaintext : Bytes)
  /-- A request gets to the middleware. -/
  | deliver (request : Rest.Request)
  /-- The application answers a request. -/
  | answer (index : Nat) (response : Rest.Response) (random : Option Nonce)
  /-- A client opens a response. -/
  | receive (key : ContentEncryptionKey) (method : Method) (uri : Uri) (status : Nat)
      (encoded : Bytes)

section Channel

variable (crypto : Crypto) (limits : Limits)

/-- What the middleware seals for an answer. -/
def answerMade (provider : Provider) (random : Option Nonce) (request : Rest.Request)
    (response : Rest.Response) : Option Made := do
  let _ ← (provider.rest crypto random).sealed limits.response request.method request.uri response
  let direction ← directionOf (some response.status) request.method request.uri
  return ⟨← provider.currentKey, direction, ← random, ← response.body⟩

def advance (state : State) : Action → Option State
  | .rotate provider => some { state with provider := provider }
  | .send key method uri nonce plaintext =>
      some { state with made := state.made ++ [⟨key, .request method uri, nonce, plaintext⟩] }
  | .deliver request =>
      -- no nonce is taken on the way in
      match (state.provider.gate crypto limits none).accept request with
      | .error _ => some state
      | .ok admitted => some { state with handled := state.handled ++ [⟨admitted, none⟩] }
  | .answer index response random => do
      let handled ← state.handled[index]?
      guard handled.answer.isNone
      return { state with
        made := state.made ++
          (answerMade crypto limits state.provider random handled.request response).toList
        handled := state.handled.set index ⟨handled.request, some response⟩ }
  | .receive key method uri status encoded => do
      let result ← key.decryptResponse crypto method uri status encoded
      match result with
      | .error _ => some state
      | .ok body =>
          some { state with accepted := state.accepted ++ [⟨method, uri, status, body⟩] }

def channel (provider : Provider) : Lts State Action where
  init := ⟨provider, [], [], []⟩
  step := advance crypto limits

end Channel

/-! ## What the gate lets through -/

section Gate

variable {crypto : Crypto} {limits : Limits} {provider : Provider} {random : Option Nonce}
  {request admitted : Rest.Request}

/-- What a handler is called with: an empty body, or one that was opened. -/
inductive Admitted (crypto : Crypto) (method uri : String) (encoded : Bytes) : Bytes → Prop
  | nothing (empty : encoded = []) : Admitted crypto method uri encoded []
  | opened {key : ContentEncryptionKey} {direction : Direction} {plaintext : Bytes}
      (context : directionOf none method uri = some direction)
      (decrypted : direction.decrypt crypto key encoded = some (.ok plaintext)) :
      Admitted crypto method uri encoded plaintext

theorem accept_spec
    (accepted : (provider.gate crypto limits random).accept request = .ok admitted) :
    ∃ encoded body, Rest.collect limits.request request.payload [] = .ok encoded ∧
      admitted.method = request.method ∧ admitted.uri = request.uri ∧
      admitted.payload = [.ok body] ∧
      Admitted crypto request.method request.uri encoded body := by
  unfold Provider.gate Rest.ContentEncryption.gate at accepted
  simp only at accepted
  split at accepted
  case h_1 => cases accepted
  case h_2 => cases accepted
  case h_3 encoded collected =>
    split at accepted
    case isTrue empty =>
      cases accepted
      exact ⟨encoded, [], collected, rfl, rfl, rfl, .nothing (List.isEmpty_iff.mp empty)⟩
    case isFalse =>
      unfold Rest.ContentKeyProvider.opened at accepted
      split at accepted
      case isTrue => cases accepted
      case isFalse =>
        split at accepted
        case h_1 => cases accepted
        case h_2 named _ =>
          split at accepted
          case h_1 => cases accepted
          case h_2 plaintext opened =>
            cases accepted
            obtain ⟨key, _, opened⟩ := Option.bind_eq_some_iff.mp opened
            obtain ⟨direction, context, opened⟩ := Option.bind_eq_some_iff.mp opened
            obtain ⟨result, decrypted, opened⟩ := Option.bind_eq_some_iff.mp opened
            cases result with
            | error => cases opened
            | ok =>
                cases opened
                exact ⟨encoded, plaintext, collected, rfl, rfl, rfl, .opened context decrypted⟩

end Gate

/-! ## An exchange -/

section Exchange

variable {crypto : Crypto} {log : Set Sealing} {limits : Limits} {provider : Provider}
  {random : Option Nonce} {key current : ContentEncryptionKey} {method : Method} {uri : Uri}
  {plaintext encoded : Bytes} {request : Rest.Request} {response : Rest.Response}

/-- A request as a client sends it, in chunks of any size. -/
structure Sent (key : ContentEncryptionKey) (method : Method) (uri : Uri) (encoded : Bytes)
    (request : Rest.Request) : Prop where
  method : request.method = method.text
  uri : request.uri = uri.text
  algorithm : request.headers.text "x-content-encryption" = some Rest.encryptionAlgorithm
  keyId : request.headers.text "x-content-key-id" = some key.id
  content : Rest.contentOf request.payload = (encoded, none)

/-- Neither server-sent events nor a body in another coding. -/
structure Plain (response : Rest.Response) : Prop where
  kind : ∀ kind, response.headers.text "content-type" = some kind →
    "text/event-stream".toList.isPrefixOf kind.toList = false
  coding : ∀ coding, response.headers.text "content-encoding" = some coding →
    Auth.EqIgnoreAsciiCase coding "identity"

theorem directionOf_text (status : Option Nat) (method : Method) (uri : Uri) :
    ∃ direction, directionOf status method.text uri.text = some direction ∧
      direction.aad = (Direction.of status method uri).aad := by
  refine ⟨_, dif_pos ⟨method.noNul, uri.noNul⟩, ?_⟩
  apply Direction.aad_eq_iff.mpr
  cases status with
  | none => exact ⟨rfl, Uri.text_ofText _ _⟩
  | some status => exact ⟨rfl, Uri.text_ofText _ _, rfl⟩

theorem decrypt_congr {first second : Direction} (same : first.aad = second.aad)
    (encoded : Bytes) : first.decrypt crypto key encoded = second.decrypt crypto key encoded := by
  have opens (direction : Direction) :
      direction.decrypt crypto key encoded = key.openEnvelope crypto direction.aad encoded := by
    cases direction <;> rfl
  rw [opens, opens, same]

theorem encrypt_congr {first second : Direction} (same : first.aad = second.aad)
    (plaintext : Bytes) :
    first.encrypt crypto key random plaintext = second.encrypt crypto key random plaintext := by
  have seals (direction : Direction) : direction.encrypt crypto key random plaintext =
      key.sealEnvelope crypto direction.aad random plaintext := by
    cases direction <;> rfl
  rw [seals, seals, same]

/-- The gate opens what a client sealed. -/
theorem accept_sent (held : provider.key key.id = some key)
    (sent : Sent key method uri encoded request) (fits : encoded.length ≤ limits.request)
    (nonempty : encoded ≠ [])
    (opens : key.decryptRequest crypto method uri encoded = some (.ok plaintext)) :
    (provider.gate crypto limits random).accept request = .ok { request with
      headers := ((request.headers.remove "x-content-encryption").remove
        "x-content-key-id").remove "content-length"
      payload := [.ok plaintext] } := by
  obtain ⟨direction, context, same⟩ := directionOf_text none method uri
  have collected : Rest.collect limits.request request.payload [] = .ok encoded := by
    rw [Rest.collect_eq _ (Nat.zero_le _), sent.content, if_neg (by simpa using fits)]
    rfl
  have decrypted : direction.decrypt crypto key encoded = some (.ok plaintext) :=
    (decrypt_congr same encoded).trans opens
  have read : (provider.rest crypto random).decryptRequest (forget key) request.method request.uri
      encoded = some plaintext := by
    unfold Provider.rest
    simp only [restore_forget, Option.bind_eq_bind, Option.bind_some, sent.method, sent.uri,
      context, decrypted]
    rfl
  have named : (request.headers.text "x-content-key-id").bind
      (provider.rest crypto random).key = some (forget key) := by
    rw [sent.keyId, Option.bind_some]
    unfold Provider.rest
    simp only [held, Option.map_some]
  have filled : ¬encoded.isEmpty = true := fun empty => nonempty (List.isEmpty_iff.mp empty)
  unfold Provider.gate Rest.ContentEncryption.gate
  simp only [collected]
  rw [if_neg filled, Rest.ContentKeyProvider.opened, if_neg (not_not.mpr sent.algorithm)]
  simp only [named, read]

/-- The gate seals a plain answer with the current key. -/
theorem respond_sealed (answers : provider.currentKey = some current) (plain : Plain response)
    {body sealedBody : Bytes} (given : response.body = some body)
    (fits : body.length ≤ limits.response)
    (about : request.method = method.text ∧ request.uri = uri.text)
    (seals : current.encryptResponse crypto method uri response.status random body =
      .ok sealedBody) :
    (provider.gate crypto limits random).respond request response =
      ⟨response.status, (((response.headers.remove "content-length").remove
        "transfer-encoding").insert "x-content-encryption"
        (headerValue Rest.encryptionAlgorithm)).insert "x-content-key-id" (headerValue current.id),
        some sealedBody⟩ := by
  obtain ⟨direction, context, same⟩ := directionOf_text (some response.status) method uri
  have encrypted : direction.encrypt crypto current random body = .ok sealedBody :=
    (encrypt_congr same body).trans seals
  have written : (provider.rest crypto random).encryptResponse (forget current) request.method
      request.uri response.status body = some sealedBody := by
    unfold Provider.rest
    simp only [restore_forget, Option.bind_eq_bind, Option.bind_some, about.1, about.2, context,
      encrypted]
    rfl
  have key : (provider.rest crypto random).currentKey = some (forget current) := by
    unfold Provider.rest
    simp only [answers, Option.map_some]
  have open' : ¬((response.headers.text "content-type").any
      (fun value => "text/event-stream".toList.isPrefixOf value.toList) ||
    (response.headers.text "content-encoding").any
      (fun value => !decide (Auth.EqIgnoreAsciiCase value "identity"))) = true := by
    rw [Bool.or_eq_true, Option.any_eq_true, Option.any_eq_true]
    rintro (⟨kind, named, streams⟩ | ⟨coding, named, coded⟩)
    · rw [plain.kind kind named] at streams
      cases streams
    · simp [plain.coding coding named] at coded
  unfold Provider.gate Rest.ContentEncryption.gate Rest.ContentKeyProvider.sealed
  simp only
  rw [if_neg open', given]
  simp only [Option.bind_eq_bind, Option.bind_some]
  rw [if_neg (Nat.not_lt.mpr fits)]
  simp only [key, Option.bind_some, written]
  rfl

theorem text_of_keyId {headers : Headers} :
    Headers.text (headers.insert "x-content-key-id" (headerValue key.id)) "x-content-key-id" =
      some key.id := by
  have named := key.named
  unfold isKeyId at named
  simp only [Bool.and_eq_true] at named
  apply Headers.text_of_get
  · rw [Headers.get_insert_self, headerValue_eq]
  · intro byte member
    have ascii := List.all_eq_true.mp named.2 byte member
    simp only [isKeyIdByte, Bool.or_eq_true, Bool.and_eq_true, decide_eq_true_eq, beq_iff_eq,
      UInt8.le_iff_toNat_le] at ascii
    simp only [visible, Bool.or_eq_true, Bool.and_eq_true, decide_eq_true_eq,
      UInt8.le_iff_toNat_le, UInt8.lt_iff_toNat_lt]
    simp only [← UInt8.toNat_inj, UInt8.reduceToNat] at ascii ⊢
    omega

/-- The reply to a request, as a client gets it. -/
structure Replied (crypto : Crypto) (current : ContentEncryptionKey) (method : Method) (uri : Uri)
    (response reply : Rest.Response) (body : Bytes) : Prop where
  status : reply.status = response.status
  keyId : reply.headers.text "x-content-key-id" = some current.id
  algorithm : reply.headers.text "x-content-encryption" = some Rest.encryptionAlgorithm
  body : ∃ encoded, reply.body = some encoded ∧
    current.decryptResponse crypto method uri reply.status encoded = some (.ok body)
  headers : ∀ name, name ∉ ["x-content-encryption", "x-content-key-id", "content-length",
    "transfer-encoding"] → reply.headers.values name = response.headers.values name

theorem opens_sealed (ideal : crypto.Ideal log) {direction : Direction}
    (logged : Logged crypto log key direction random plaintext)
    (encrypted : direction.encrypt crypto key random plaintext = .ok encoded) :
    direction.decrypt crypto key encoded = some (.ok plaintext) :=
  decrypt_encrypted ideal logged encrypted (Direction.aad_eq_iff.mp rfl)

theorem replied (ideal : crypto.Ideal log) (answers : provider.currentKey = some current)
    (plain : Plain response) {body sealedBody : Bytes} (given : response.body = some body)
    (fits : body.length ≤ limits.response)
    (about : request.method = method.text ∧ request.uri = uri.text)
    (logged : Logged crypto log current (.response method uri response.status) random body)
    (seals : current.encryptResponse crypto method uri response.status random body =
      .ok sealedBody) :
    Replied crypto current method uri response
      ((provider.gate crypto limits random).respond request response) body := by
  have encrypted : (Direction.response method uri response.status).encrypt crypto current random
      body = .ok sealedBody := seals
  rw [respond_sealed answers plain given fits about seals]
  refine ⟨rfl, text_of_keyId, ?_, ⟨sealedBody, rfl, opens_sealed ideal logged encrypted⟩, ?_⟩
  · rw [Headers.text, Headers.get_insert_of_ne _ _ (by decide), Headers.get_insert_self,
      headerValue_eq]
    exact headerText_utf8 (by decide +kernel)
  · intro name other
    simp only [List.mem_cons, List.not_mem_nil, or_false, not_or] at other
    simp only [Headers.values_insert, Headers.values_remove, other, if_false]

/-- Both sides of an exchange. -/
structure Delivers (crypto : Crypto) (log : Set Sealing) (limits : Limits) (provider : Provider)
    (current : ContentEncryptionKey) (method : Method) (uri : Uri) (plaintext : Bytes)
    (request admitted : Rest.Request) : Prop where
  payload : admitted.payload = [.ok plaintext]
  about : admitted.method = request.method ∧ admitted.uri = request.uri
  headers : ∀ name, admitted.headers.values name =
    if name ∈ ["x-content-encryption", "x-content-key-id", "content-length"] then []
    else request.headers.values name
  reply : ∀ response, Plain response → ∀ body, response.body = some body →
    body.length ≤ limits.response → ∀ random encoded,
      Logged crypto log current (.response method uri response.status) random body →
      current.encryptResponse crypto method uri response.status random body = .ok encoded →
        Replied crypto current method uri response
          ((provider.gate crypto limits random).respond admitted response) body

/-- Whichever of its keys the provider retains, a client that uses it is served: the handler gets
the body that was sealed, and the reply opens with the current key. -/
theorem exchange_delivers (ideal : crypto.Ideal log)
    (written : ∀ bytes, bytes ≠ [] → crypto.encode bytes ≠ [])
    {retained : List ContentEncryptionKey} {keys : StaticContentKeyProvider}
    (built : retained.foldlM StaticContentKeyProvider.withDecryptionKey (.new current) = .ok keys)
    (held : key ∈ current :: retained) {nonce : Option Nonce}
    (logged : Logged crypto log key (.request method uri) nonce plaintext)
    (encrypted : key.encryptRequest crypto method uri nonce plaintext = .ok encoded)
    (sent : Sent key method uri encoded request) (fits : encoded.length ≤ limits.request)
    (random : Option Nonce) :
    ∃ admitted, (keys.provider.gate crypto limits random).accept request = .ok admitted ∧
      Delivers crypto log limits keys.provider current method uri plaintext request admitted := by
  have holds := StaticContentKeyProvider.holds_of_retained built
  have known : keys.provider.key key.id = some key := by
    apply holds.all
    rcases List.mem_cons.mp held with same | member
    · rw [same]
      exact List.mem_cons_self
    · exact List.mem_cons_of_mem _ (List.mem_reverse.mpr member)
  have sealed : (Direction.request method uri).encrypt crypto key nonce plaintext = .ok encoded :=
    encrypted
  have nonempty : encoded ≠ [] := by
    obtain ⟨_, _, _, _, rfl⟩ := encrypt_eq_ok.mp sealed
    apply written
    simp [envelope, MAGIC]
  have opens := opens_sealed ideal logged sealed
  refine ⟨_, accept_sent known sent fits nonempty opens, rfl, ⟨rfl, rfl⟩, ?_, ?_⟩
  · intro name
    simp only [Headers.values_remove, List.mem_cons, List.not_mem_nil, or_false]
    split_ifs <;> simp_all
  · intro response plain body given small random encoded logged answered
    exact replied ideal holds.answers plain given small ⟨sent.method, sent.uri⟩ logged answered

end Exchange

/-! ## An exchange while keys rotate -/

/-- The cipher on a table of messages, and base64. -/
def tableCrypto (table : List Sealing) : Crypto where
  sealInPlace key nonce aad plaintext :=
    (table.find? fun sealing => sealing.key = key ∧ sealing.nonce = nonce ∧ sealing.aad = aad ∧
      sealing.plaintext = plaintext).map Sealing.ciphertext
  openInPlace key nonce aad ciphertext :=
    (table.find? fun sealing => sealing.key = key ∧ sealing.nonce = nonce ∧ sealing.aad = aad ∧
      sealing.ciphertext = ciphertext).map Sealing.plaintext
  encode := Base64.encode
  decode := Base64.decode

theorem tableCrypto_ideal {table : List Sealing} (once : (table.map Sealing.nonce).Nodup)
    (tagged : ∀ sealing ∈ table, TAG_LEN ≤ sealing.ciphertext.length) :
    (tableCrypto table).Ideal {sealing | sealing ∈ table} where
  opens := by
    intro key nonce aad ciphertext plaintext
    unfold tableCrypto
    simp only [Set.mem_ofPred_eq, Option.map_eq_some_iff]
    constructor
    · rintro ⟨sealing, found, rfl⟩
      have member := List.mem_of_find?_eq_some found
      have chosen := List.find?_some found
      simp only [decide_eq_true_eq] at chosen
      obtain ⟨rfl, rfl, rfl, rfl⟩ := chosen
      exact member
    · intro member
      cases found : table.find? fun sealing => sealing.key = key ∧ sealing.nonce = nonce ∧
          sealing.aad = aad ∧ sealing.ciphertext = ciphertext with
      | none =>
          have never := List.find?_eq_none.mp found _ member
          simp at never
      | some other =>
          have chosen := List.find?_some found
          simp only [decide_eq_true_eq] at chosen
          have same := List.inj_on_of_nodup_map once (List.mem_of_find?_eq_some found) member
            chosen.2.1
          exact ⟨other, rfl, by rw [same]⟩
  distinct := by
    intro first here second there nonces _
    rw [List.inj_on_of_nodup_map once here there nonces]
    exact ⟨rfl, rfl⟩
  tagged := tagged
  decode_eq := fun _ _ => Base64.decode_eq_some

/-- The key that follows `sampleKey`. -/
def nextKey : ContentEncryptionKey :=
  ⟨"current", List.replicate 32 9, by decide +kernel, rfl⟩

def replyNonce : Nonce := ⟨[12, 13, 14, 15, 16, 17, 18, 19, 20, 21, 22, 23], rfl⟩

/-- The AES-256-GCM ciphertext and tag of `done`. -/
def replySealing : Sealing where
  key := nextKey.bytes
  nonce := replyNonce
  aad := responseAad POST recordsUri 200
  plaintext := utf8 "done"
  ciphertext := [175, 47, 164, 116, 171, 23, 115, 245, 133, 254, 78, 83, 28, 251, 88, 187, 110, 219,
    255, 170]

def messages : List Sealing := [sampleSealing, replySealing]

theorem messages_ideal : (tableCrypto messages).Ideal {sealing | sealing ∈ messages} :=
  tableCrypto_ideal (by decide) (by decide)

def rotated : StaticContentKeyProvider :=
  ⟨"current", [("primary", sampleKey), ("current", nextKey)]⟩

/-- The request of a client that still uses `sampleKey`, in two chunks. -/
def lateRequest : Rest.Request where
  method := "POST"
  path := "/records"
  uri := "/records?tenant=one"
  pattern := none
  headers := [("x-content-encryption", headerValue Rest.encryptionAlgorithm),
    ("x-content-key-id", headerValue "primary"), ("content-length", headerValue "56")]
  payload := [.ok ((sampleSealing.encoded (tableCrypto messages)).take 20),
    .ok ((sampleSealing.encoded (tableCrypto messages)).drop 20)]
  policy := none
  requestId := none
  trace := none

theorem late_request_delivered : ∃ admitted,
    (rotated.provider.gate (tableCrypto messages) ⟨64, 64⟩ none).accept lateRequest =
        .ok admitted ∧
      Delivers (tableCrypto messages) {sealing | sealing ∈ messages} ⟨64, 64⟩ rotated.provider
        nextKey POST recordsUri (utf8 "secret") lateRequest admitted := by
  have enciphered : (tableCrypto messages).sealInPlace sampleKey.bytes sampleNonce
      (Direction.request POST recordsUri).aad (utf8 "secret") = some sampleSealing.ciphertext := by
    decide +kernel
  have encrypted : (Direction.request POST recordsUri).encrypt (tableCrypto messages) sampleKey
      (some sampleNonce) (utf8 "secret") = .ok (sampleSealing.encoded (tableCrypto messages)) :=
    encrypt_eq_ok.mpr ⟨sampleNonce, sampleSealing.ciphertext, rfl, enciphered, rfl⟩
  have logged : Logged (tableCrypto messages) {sealing | sealing ∈ messages} sampleKey
      (.request POST recordsUri) (some sampleNonce) (utf8 "secret") := by
    intro nonce ciphertext given ciphered
    cases given
    cases enciphered.symm.trans ciphered
    exact List.mem_cons_self
  have built : [sampleKey].foldlM StaticContentKeyProvider.withDecryptionKey (.new nextKey) =
      .ok rotated := by
    rfl
  have sent : Sent sampleKey POST recordsUri (sampleSealing.encoded (tableCrypto messages))
      lateRequest := by
    refine ⟨rfl, by decide +kernel, by decide +kernel, by decide +kernel, ?_⟩
    simp [Rest.contentOf, lateRequest]
  have written (bytes : Bytes) (some : bytes ≠ []) : (tableCrypto messages).encode bytes ≠ [] := by
    rcases bytes with _ | ⟨first, _ | ⟨second, _ | ⟨third, rest⟩⟩⟩
    · exact (some rfl).elim
    all_goals exact List.cons_ne_nil _ _
  exact exchange_delivers messages_ideal written built (List.mem_cons_of_mem _ List.mem_cons_self)
    logged encrypted sent (by decide +kernel) none

/-! ## What is authentic -/

/-- The sealing of a body. -/
structure Made.Seals (made : Made) (sealing : Sealing) : Prop where
  key : sealing.key = made.key.bytes
  nonce : sealing.nonce = made.nonce
  aad : sealing.aad = made.direction.aad
  plaintext : sealing.plaintext = made.plaintext

/-- An envelope that is offered was sealed before. -/
def Known (crypto : Crypto) (log : Set Sealing) (made : List Made) (encoded : Bytes) : Prop :=
  ∀ sealing ∈ log, encoded = sealing.encoded crypto → ∃ item ∈ made, item.Seals sealing

/-- The network offers anything but envelopes that nobody sealed yet. -/
def Network (crypto : Crypto) (log : Set Sealing) (limits : Limits) (state : State) :
    Action → Prop
  | .deliver request => ∀ encoded, Rest.collect limits.request request.payload [] = .ok encoded →
      Known crypto log state.made encoded
  | .receive _ _ _ _ encoded => Known crypto log state.made encoded
  | _ => True

/-- A client sealed this body for this method and Uri. -/
def Requested (made : List Made) (method uri : String) (body : Bytes) : Prop :=
  ∃ item ∈ made, ∃ sealedMethod sealedUri, item.direction = .request sealedMethod sealedUri ∧
    sealedMethod.text = method ∧ sealedUri.text = uri ∧ item.plaintext = body

/-- A handler that was called with this method and Uri answered with this status and body. -/
def Answered (handled : List Handled) (method uri : String) (status : Nat) (body : Bytes) : Prop :=
  ∃ item ∈ handled, ∃ response, item.answer = some response ∧ response.status = status ∧
    response.body = some body ∧ item.request.method = method ∧ item.request.uri = uri

structure Authentic (state : State) : Prop where
  /-- Whatever a handler is called with. -/
  handled : ∀ item ∈ state.handled, ∃ body, item.request.payload = [.ok body] ∧
    (body = [] ∨ Requested state.made item.request.method item.request.uri body)
  /-- Whatever a client accepts. -/
  accepted : ∀ item ∈ state.accepted,
    Answered state.handled item.method.text item.uri.text item.status item.body

/-- What the middleware sealed was answered. -/
def SealsAnswers (state : State) : Prop :=
  ∀ item ∈ state.made, ∀ method uri status, item.direction = .response method uri status →
    Answered state.handled method.text uri.text status item.plaintext

theorem Requested.append {made : List Made} {method uri : String} {body : Bytes}
    (requested : Requested made method uri body) (more : List Made) :
    Requested (made ++ more) method uri body := by
  obtain ⟨item, member, rest⟩ := requested
  exact ⟨item, List.mem_append_left _ member, rest⟩

section Answered

variable {handled : List Handled} {method uri : String} {status : Nat} {body : Bytes}

theorem Answered.append (answered : Answered handled method uri status body)
    (more : List Handled) : Answered (handled ++ more) method uri status body := by
  obtain ⟨item, member, rest⟩ := answered
  exact ⟨item, List.mem_append_left _ member, rest⟩

/-- An answer is not taken back. -/
theorem Answered.set (answered : Answered handled method uri status body) {index : Nat}
    {old : Handled} (found : handled[index]? = some old) (open' : old.answer = none)
    (item : Handled) : Answered (handled.set index item) method uri status body := by
  obtain ⟨other, member, response, given, rest⟩ := answered
  obtain ⟨position, there⟩ := List.mem_iff_getElem?.mp member
  have apart : index ≠ position := by
    rintro rfl
    cases found.symm.trans there
    rw [open'] at given
    cases given
  refine ⟨other, ?_, response, given, rest⟩
  apply List.mem_of_getElem? (i := position)
  rw [List.getElem?_set_ne apart]
  exact there

end Answered

section Run

variable {crypto : Crypto} {log : Set Sealing} {limits : Limits} {provider : Provider}
  {state next : State}

/-- What opens was sealed in the same context. -/
theorem made_of_decrypted (ideal : crypto.Ideal log) {made : List Made} {direction : Direction}
    {key : ContentEncryptionKey} {encoded plaintext : Bytes}
    (known : Known crypto log made encoded)
    (decrypted : direction.decrypt crypto key encoded = some (.ok plaintext)) :
    ∃ item ∈ made, direction.Same item.direction ∧ item.plaintext = plaintext := by
  obtain ⟨nonce, ciphertext, logged, rfl⟩ := (decrypt_eq_ok ideal).mp decrypted
  obtain ⟨item, member, seals⟩ := known _ logged rfl
  exact ⟨item, member, Direction.aad_eq_iff.mp seals.aad, seals.plaintext.symm⟩

theorem directionOf_eq_some {status : Option Nat} {method uri : String} {direction : Direction}
    (given : directionOf status method uri = some direction) : ∃ (typed : Method) (text : Uri),
      direction = .of status typed text ∧ typed.text = method ∧ text.text = uri := by
  unfold directionOf at given
  split at given
  case isTrue noNul =>
    cases given
    exact ⟨_, _, rfl, rfl, Uri.text_ofText _ _⟩
  case isFalse => cases given

theorem requested_of_admitted (ideal : crypto.Ideal log) {made : List Made}
    {method uri : String} {encoded body : Bytes} (known : Known crypto log made encoded)
    (admitted : Admitted crypto method uri encoded body) :
    body = [] ∨ Requested made method uri body := by
  cases admitted with
  | nothing => exact .inl rfl
  | opened context decrypted =>
      obtain ⟨item, member, same, plain⟩ := made_of_decrypted ideal known decrypted
      obtain ⟨typed, text, rfl, rfl, rfl⟩ := directionOf_eq_some context
      refine .inr ⟨item, member, ?_⟩
      cases direction : item.direction with
      | request sealedMethod sealedUri =>
          rw [direction] at same
          exact ⟨sealedMethod, sealedUri, rfl, same.1.symm, same.2.symm, plain⟩
      | response _ _ _ =>
          rw [direction] at same
          exact same.elim

theorem answered_of_decrypted (ideal : crypto.Ideal log) (answers : SealsAnswers state)
    {key : ContentEncryptionKey} {method : Method} {uri : Uri} {status : Nat}
    {encoded body : Bytes} (known : Known crypto log state.made encoded)
    (decrypted : key.decryptResponse crypto method uri status encoded = some (.ok body)) :
    Answered state.handled method.text uri.text status body := by
  have opened : (Direction.response method uri status).decrypt crypto key encoded =
      some (.ok body) := decrypted
  obtain ⟨item, member, same, rfl⟩ := made_of_decrypted ideal known opened
  cases direction : item.direction with
  | request _ _ =>
      rw [direction] at same
      exact same.elim
  | response sealedMethod sealedUri sealedStatus =>
      rw [direction] at same
      obtain ⟨methods, uris, rfl⟩ := same
      rw [methods, uris]
      exact answers item member _ _ _ direction

theorem answerMade_spec {random : Option Nonce} {request : Rest.Request}
    {response : Rest.Response} {item : Made}
    (made : item ∈ answerMade crypto limits provider random request response) :
    ∃ method uri, item.direction = .response method uri response.status ∧
      method.text = request.method ∧ uri.text = request.uri ∧
      response.body = some item.plaintext := by
  unfold answerMade at made
  obtain ⟨_, _, made⟩ := Option.bind_eq_some_iff.mp made
  obtain ⟨direction, context, made⟩ := Option.bind_eq_some_iff.mp made
  obtain ⟨key, _, made⟩ := Option.bind_eq_some_iff.mp made
  obtain ⟨nonce, _, made⟩ := Option.bind_eq_some_iff.mp made
  obtain ⟨body, given, made⟩ := Option.bind_eq_some_iff.mp made
  cases made
  obtain ⟨method, uri, rfl, methods, uris⟩ := directionOf_eq_some context
  exact ⟨method, uri, rfl, methods, uris, given⟩

theorem authentic_step (ideal : crypto.Ideal log) {action : Action}
    (held : Authentic state ∧ SealsAnswers state) (network : Network crypto log limits state action)
    (taken : advance crypto limits state action = some next) :
    Authentic next ∧ SealsAnswers next := by
  obtain ⟨authentic, answers⟩ := held
  cases action with
  | rotate provider =>
      cases taken
      exact ⟨⟨authentic.handled, authentic.accepted⟩, answers⟩
  | send key method uri nonce plaintext =>
      cases taken
      refine ⟨⟨?_, authentic.accepted⟩, ?_⟩
      · intro item member
        obtain ⟨body, payload, origin⟩ := authentic.handled item member
        exact ⟨body, payload, origin.imp_right fun requested => requested.append _⟩
      · intro item member sealedMethod sealedUri status direction
        rcases List.mem_append.mp member with old | new
        · exact answers item old _ _ _ direction
        · rw [List.mem_singleton] at new
          subst new
          cases direction
  | deliver request =>
      unfold advance at taken
      simp only at taken
      split at taken
      case h_1 =>
        cases taken
        exact ⟨authentic, answers⟩
      case h_2 admitted accepted =>
        cases taken
        obtain ⟨encoded, body, collected, method, uri, payload, let_in⟩ := accept_spec accepted
        refine ⟨⟨?_, ?_⟩, ?_⟩
        · intro item member
          rcases List.mem_append.mp member with old | new
          · exact authentic.handled item old
          · rw [List.mem_singleton] at new
            subst new
            refine ⟨body, payload, ?_⟩
            rw [method, uri]
            exact requested_of_admitted ideal (network encoded collected) let_in
        · intro item member
          exact (authentic.accepted item member).append _
        · intro item member sealedMethod sealedUri status direction
          exact (answers item member _ _ _ direction).append _
  | answer index response random =>
      obtain ⟨handled, found, taken⟩ := Option.bind_eq_some_iff.mp taken
      obtain ⟨_, unanswered, taken⟩ := Option.bind_eq_some_iff.mp taken
      have fresh : handled.answer = none := by
        simpa using unanswered
      cases taken
      refine ⟨⟨?_, ?_⟩, ?_⟩
      · intro item member
        obtain ⟨old, there, same⟩ : ∃ old ∈ state.handled, item.request = old.request := by
          rcases List.mem_or_eq_of_mem_set member with old | new
          · exact ⟨item, old, rfl⟩
          · exact ⟨handled, List.mem_of_getElem? found, by rw [new]⟩
        obtain ⟨body, payload, origin⟩ := authentic.handled old there
        rw [same]
        exact ⟨body, payload, origin.imp_right fun requested => requested.append _⟩
      · intro item member
        exact (authentic.accepted item member).set found fresh _
      · intro item member sealedMethod sealedUri status direction
        rcases List.mem_append.mp member with old | new
        · exact (answers item old _ _ _ direction).set found fresh _
        · obtain ⟨method, uri, made, methods, uris, given⟩ :=
            answerMade_spec (Option.mem_toList.mp new)
          cases made.symm.trans direction
          refine ⟨⟨handled.request, some response⟩, List.mem_of_getElem? (i := index) ?_, response,
            rfl, rfl, given, methods.symm, uris.symm⟩
          rw [List.getElem?_set_self (List.getElem?_eq_some_iff.mp found).1]
  | receive key method uri status encoded =>
      obtain ⟨result, decrypted, taken⟩ := Option.bind_eq_some_iff.mp taken
      cases result with
      | error =>
          cases taken
          exact ⟨authentic, answers⟩
      | ok body =>
          cases taken
          refine ⟨⟨authentic.handled, ?_⟩, answers⟩
          intro item member
          rcases List.mem_append.mp member with old | new
          · exact authentic.accepted item old
          · rw [List.mem_singleton] at new
            subst new
            exact answered_of_decrypted ideal answers network decrypted

/-- Over a network that can do anything but guess envelopes, handlers are called with nothing but
what clients sealed for their method and Uri, and clients accept nothing but the answers. -/
theorem channel_authentic (ideal : crypto.Ideal log)
    (reached : (channel crypto limits provider).Reach (Network crypto log limits) state) :
    Authentic state := by
  refine (reached.invariant (I := fun state => Authentic state ∧ SealsAnswers state) ?_
    fun _ _ _ held network taken => authentic_step ideal held network taken).1
  refine ⟨⟨?_, ?_⟩, ?_⟩
  · intro item member
    cases member
  · intro item member
    cases member
  · intro item member
    cases member

end Run

instance Made.Seals.decidable (made : Made) (sealing : Sealing) :
    Decidable (made.Seals sealing) :=
  decidable_of_iff (sealing.key = made.key.bytes ∧ sealing.nonce = made.nonce ∧
      sealing.aad = made.direction.aad ∧ sealing.plaintext = made.plaintext)
    ⟨fun ⟨key, nonce, aad, plaintext⟩ => ⟨key, nonce, aad, plaintext⟩,
      fun seals => ⟨seals.key, seals.nonce, seals.aad, seals.plaintext⟩⟩

instance Known.decidable (crypto : Crypto) (table : List Sealing) (made : List Made)
    (encoded : Bytes) : Decidable (Known crypto {sealing | sealing ∈ table} made encoded) :=
  decidable_of_iff (∀ sealing ∈ table, encoded = sealing.encoded crypto →
    ∃ item ∈ made, item.Seals sealing) Iff.rfl

instance Network.decidable (crypto : Crypto) (table : List Sealing) (limits : Limits)
    (state : State) :
    (action : Action) → Decidable (Network crypto {sealing | sealing ∈ table} limits state action)
  | .deliver request =>
      match collected : Rest.collect limits.request request.payload [] with
      | .ok encoded =>
          decidable_of_iff (Known crypto {sealing | sealing ∈ table} state.made encoded)
            ⟨fun known _ same => by cases collected.symm.trans same; exact known,
              fun all => all encoded collected⟩
      | .error _ => isTrue fun _ same => by cases collected.symm.trans same
  | .receive _ _ _ _ encoded => Known.decidable crypto table state.made encoded
  | .rotate _ => isTrue trivial
  | .send _ _ _ _ _ => isTrue trivial
  | .answer _ _ _ => isTrue trivial

def exchange : List Action :=
  [.send sampleKey POST recordsUri sampleNonce (utf8 "secret"), .deliver lateRequest,
    .answer 0 ⟨200, [], some (utf8 "done")⟩ (some replyNonce),
    .receive nextKey POST recordsUri 200 (replySealing.encoded (tableCrypto messages))]

theorem exchange_authentic : ∃ state,
    (channel (tableCrypto messages) ⟨64, 64⟩ rotated.provider).exec
        ⟨rotated.provider, [], [], []⟩ exchange = some state ∧
      state.accepted.map Accepted.body = [utf8 "done"] ∧ Authentic state := by
  have run : ((channel (tableCrypto messages) ⟨64, 64⟩ rotated.provider).exec
      ⟨rotated.provider, [], [], []⟩ exchange).map (fun state =>
        state.accepted.map Accepted.body) = some [utf8 "done"] := by
    decide +kernel
  obtain ⟨state, ran, accepted⟩ := Option.map_eq_some_iff.mp run
  have reached : (channel (tableCrypto messages) ⟨64, 64⟩ rotated.provider).Reach
      (Network (tableCrypto messages) {sealing | sealing ∈ messages} ⟨64, 64⟩) state :=
    Lts.reach_of_exec exchange (by decide +kernel) ran
  exact ⟨state, ran, accepted, channel_authentic messages_ideal reached⟩

end RustZero.ContentEncryption
