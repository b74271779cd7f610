import AtlasMemory.Foundations.JsonRoundTrip
import AtlasMemory.Sync.Bridge

/-!
# The receiving side of the gossip protocol

The model of `process_sync_response_async` from the text of a request on: the envelope is read, the
cipher text decrypted, the delta validated, the signature checked with the key of the node that the
envelope names, the mutations applied by the bridge, and the clock of the peer updated.

A request carries three names of its sender: `source_node` of the envelope, of the delta, and of the
audit payload inside the delta.  The first two choose the key and the peer; the third is recorded as
the origin of the mutations.

The byte strings and the cryptographic operations on them are parameters.  The counters of a clock
are integers, as their type in the source says; a delta with another counter is refused here.  The
in-memory replica, which takes a delta without mutations, has a model of its own and is left out, so
nothing that it refuses is refused here.
-/

/-! ## Values read from JSON -/

namespace Json

open AtlasMemory (PyError)

/-- `data.get(name)` of a dictionary. -/
def get? (data : Json) (name : String) : Option Json :=
  match data with
  | .obj members => PyDict.find name members
  | _ => none

/-- The text that a value is, if it is one. -/
def text? : Json → Option String
  | .str s => some s
  | _ => none

def natOfDigits (cs : List Char) : Option ℕ :=
  if cs.all isDigit then some (cs.foldl (fun acc c => 10 * acc + (c.toNat - 48)) 0) else none

/-- The integer that a value is, if it is one. -/
def int? : Json → Option ℤ
  | .number n =>
    match n.text.toList with
    | '-' :: cs => (natOfDigits cs).map fun k => -(k : ℤ)
    | cs => (natOfDigits cs).map fun k => (k : ℤ)
  | _ => none

/-- `name in v`. -/
def hasItem (name : String) : Json → Except PyError Bool
  | .obj members => .ok (decide (name ∈ members.map Prod.fst))
  | .arr items => .ok (items.any fun
    | .str s => decide (s = name)
    | _ => false)
  | .str s => .ok (decide (name.toList <:+: s.toList))
  | _ => .error ⟨.typeError, "argument is not iterable"⟩

/-- `for x in v`. -/
def iterate : Json → Except PyError (List Json)
  | .arr items => .ok items
  | .obj members => .ok (members.map fun m => .str m.1)
  | .str s => .ok (s.toList.map fun c => .str (String.singleton c))
  | _ => .error ⟨.typeError, "object is not iterable"⟩

end Json

namespace AtlasMemory

namespace Runtime

/-- `f"{v}"`. -/
def formatted (rt : Runtime) : Json → String
  | .str s => s
  | v => rt.pyStr v

/-- `float(data.get(name, default))`. -/
def floatItem (rt : Runtime) (data : Json) (name : String) (default : PyFloat) :
    Except PyError PyFloat :=
  match data.get? name with
  | none => .ok default
  | some v =>
    match rt.floatOfJson v with
    | some x => .ok x
    | none => .error ⟨.valueError, "could not convert to float: " ++ name⟩

end Runtime

/-! ## Applying a received payload -/

/-- `VectorClock.model_validate`. -/
def clockOfJson (data : Json) : Except PyError CompactVectorClock :=
  let members := match data with
    | .obj members =>
      match PyDict.find "clocks" members with
      | some (.obj inner) => inner
      | some _ => []
      | none => members
    | _ => []
  match members.mapM fun m => m.2.int?.map fun n => (m.1, n) with
  | some counters => .ok ⟨PyDict.ofEntries counters⟩
  | none => .error ⟨.typeError, "a counter of the clock is not an integer"⟩

/-- A mutation record as it is received: beside text, its value may be any JSON value. -/
structure ReceivedMutation where
  mutation : Mutation
  structured : Option Json

namespace ReceivedMutation

/-- Read a record; `none` when its key is blank. -/
def read (rt : Runtime) (m : Json) : Except PyError (Option ReceivedMutation) := do
  let .obj _ := m | throw ⟨.attributeError, "object has no attribute 'get'"⟩
  let key := rt.formatted ((m.get? "key").getD (.str ""))
  if PyString.strip key = "" then return none
  let confidence ← rt.floatItem m "confidence" (.finite (9 / 10))
  let precision ← rt.floatItem m "precision" (.finite 1)
  let timestamp ← rt.floatItem m "timestamp" (.finite 0)
  let value := (m.get? "value").getD .null
  return some
    { mutation :=
        { seq := 0
          key
          value := match value with
            | .str s => some s
            | _ => none
          confidence := some confidence
          precision := some precision
          metadata := match m.get? "metadata" with
            | some (.obj members) => some (PyDict.ofEntries members)
            | _ => none
          reason := match m.get? "reason" with
            | some (.str s) => some s
            | _ => none
          timestamp := some timestamp }
      structured := match value with
        | .str _ | .null => none
        | v => some v }

def decodedValue (m : ReceivedMutation) : Json := m.structured.getD m.mutation.decodedValue

/-- What is handed to the write path, or to `set_sync` without one. -/
def setArgs (rt : Runtime) (sourceNode : String) (m : ReceivedMutation) : SetArgs where
  key := m.mutation.appliedKey
  value := m.decodedValue
  confidence := some m.mutation.incomingConfidence
  metadata := some (replicaMetadata rt sourceNode m.mutation.appliedKey (rt.pyStr m.decodedValue)
    (m.mutation.incomingPrecision rt))
  reason := "sync_from_" ++ sourceNode

end ReceivedMutation

/-- What takes a value: the write path, or `set_sync`. -/
abbrev Writer := VerifiedKVStore → SetArgs → ℚ → VerifiedKVStore × Except PyError Unit

/-- Without a write path, values are written by `set_sync`. -/
def setSyncWriter (rt : Runtime) : Writer := fun kv a now =>
  (kv.call rt (.setSync a now), (kv.db.setSync rt a now).2.map fun _ => ())

/-- The mutation loop: the store, what was handed to the writer, and whether the loop raised. -/
def applyReceived (rt : Runtime) (writer : Writer) (sourceNode : String) (kv : VerifiedKVStore) :
    List Json → (ℕ → ℚ) → VerifiedKVStore × List SetArgs × Except PyError Unit
  | [], _ => (kv, [], .ok ())
  | item :: items, times =>
    match ReceivedMutation.read rt item with
    | .error err => (kv, [], .error err)
    | .ok none => applyReceived rt writer sourceNode kv items fun i => times (i + 1)
    | .ok (some m) =>
      if gateRejects rt (kv.db.stateVariables.getState rt m.mutation.appliedKey) m.mutation then
        applyReceived rt writer sourceNode kv items fun i => times (i + 1)
      else if m.mutation.isDeleted then
        applyReceived rt writer sourceNode
          (kv.call rt (.deleteSync m.mutation.appliedKey (times 0))) items fun i => times (i + 1)
      else
        let args := m.setArgs rt sourceNode
        match writer kv args (times 0) with
        | (kv', .error err) => (kv', [args], .error err)
        | (kv', .ok ()) =>
          let (kv'', writes, result) :=
            applyReceived rt writer sourceNode kv' items fun i => times (i + 1)
          (kv'', args :: writes, result)

/-- The name that a payload gives its sender, as it is recorded. -/
def payloadSource (rt : Runtime) (payload : Json) : String :=
  rt.formatted ((payload.get? "source_node").getD (.str "peer"))

namespace StateSyncBridge

/-- The clock of a payload, unless it has none. -/
def receivedClock (rt : Runtime) (payload : Json) : Except PyError (Option CompactVectorClock) :=
  match payload.get? "vector_clock" with
  | none => .ok none
  | some v => if rt.truthy v then (clockOfJson v).map some else .ok none

/-- `apply_remote_delta` of a payload. -/
def applyReceivedPayload (rt : Runtime) (writer : Writer) (b : StateSyncBridge) (payload : Json)
    (times : ℕ → ℚ) : StateSyncBridge × List SetArgs × Except PyError Unit :=
  match payload with
  | .obj _ =>
    match receivedClock rt payload with
    | .error err => (b, [], .error err)
    | .ok peer =>
      if peer.any (isStale b.clock) then (b, [], .ok ())
      else match ((payload.get? "mutations").getD (.arr [])).iterate with
        | .error err => (b, [], .error err)
        | .ok items =>
          let (kv, writes, result) :=
            applyReceived rt writer (payloadSource rt payload) b.kv items times
          let clock := match result, peer with
            | .ok (), some peer => b.clock.receive peer b.nodeId
            | _, _ => b.clock
          ({ b with kv, clock }, writes, result)
  | _ => (b, [], .ok ())

end StateSyncBridge

/-! ## Identities and envelopes -/

/-- The operations on byte strings `β`, all by third-party code or the standard library. -/
structure Primitives (β : Type) where
  /-- `bytes.fromhex(s)`; `none` when it raises. -/
  fromHex : String → Option β
  /-- `crypto.decrypt(blob, aad)`; `none` when the tag does not fit. -/
  decrypt : β → String → Option β
  /-- `data.decode("utf-8")`; `none` when it raises. -/
  decode : β → Option String
  /-- `Ed25519PublicKey.verify(signature, data)`: the signature is accepted. -/
  verify : β → β → β → Bool

/-- `PeerIdentity`, without its private key. -/
structure PeerIdentity (β : Type) where
  nodeId : String
  publicKey : β
  peerPublicKeys : PyDict String β

/-- `verify`: with the own key under the own name, else with the registered key. -/
def PeerIdentity.verify {β : Type} (id : PeerIdentity β) (prim : Primitives β) (peerId : String)
    (data signature : β) : Bool :=
  if peerId = id.nodeId then prim.verify id.publicKey data signature
  else match id.peerPublicKeys.get? peerId with
    | some key => prim.verify key data signature
    | none => false

/-- `PeerStatus`. -/
structure PeerStatus where
  vectorClock : CompactVectorClock
  lastSeen : ℚ

/-- `GossipProtocol` as the receiver of requests. -/
structure GossipReceiver (β : Type) where
  identity : Option (PeerIdentity β)
  bridge : Option StateSyncBridge
  peers : PyDict String PeerStatus

/-- `SyncDelta` as it is received. -/
structure ReceivedDelta where
  sourceNode : String
  vectorClock : CompactVectorClock
  payload : Json

/-- The payload that is handed to the bridge, if the delta has mutations. -/
def mutationsPayload (payload : Json) : Except PyError (Option Json) := do
  if ← payload.hasItem "mutations" then return some payload
  let .obj _ := payload | throw ⟨.attributeError, "object has no attribute 'get'"⟩
  let inner := (payload.get? "payload").getD (.obj [])
  if ← inner.hasItem "mutations" then return some inner
  return none

/-- A request that was opened: the delta, the name and the bytes that were verified with the
signature, and the payload for the bridge. -/
structure OpenedRequest (β : Type) where
  delta : ReceivedDelta
  source : Json
  data : β
  signature : Option β
  applied : Option Json

namespace GossipReceiver

variable {β : Type}

/-- `SyncDelta.model_validate`. -/
def validateDelta (rt : Runtime) (prim : Primitives β) (data : Json) :
    Except PyError ReceivedDelta := do
  let .obj _ := data | throw ⟨.valueError, "Expected dict for SyncDelta validation"⟩
  let vectorClock ← clockOfJson ((data.get? "vector_clock").getD (.obj []))
  if let some (.str hex) := data.get? "encrypted_payload" then
    if (prim.fromHex hex).isNone then
      throw ⟨.valueError, "non-hexadecimal number found in fromhex() arg"⟩
  return {
    sourceNode := rt.formatted ((data.get? "source_node").getD (.str ""))
    vectorClock
    payload := (data.get? "payload").getD (.obj []) }

def textItem (envelope : Json) (name : String) : Except PyError String :=
  match envelope with
  | .obj members =>
    match PyDict.find name members with
    | some (.str s) => .ok s
    | some _ => .error ⟨.typeError, name ++ " is not a string"⟩
    | none => .error ⟨.keyError, name⟩
  | _ => .error ⟨.typeError, "envelope is not a dictionary"⟩

/-- `_verify_envelope_signature`: the signature that was accepted, if there is an identity. -/
def verifyEnvelopeSignature (g : GossipReceiver β) (rt : Runtime) (prim : Primitives β)
    (envelope : Json) (source : String) (data : β) : Except PyError (Option β) := do
  let some identity := g.identity | return none
  let sigHex := (envelope.get? "signature_hex").getD .null
  if !rt.truthy sigHex then
    throw ⟨.permissionError, "Missing cryptographic signature from node '" ++ source ++ "'"⟩
  let failed : PyError :=
    ⟨.permissionError, "Cryptographic signature verification failed for node '" ++ source ++ "'"⟩
  let .str hex := sigHex | throw failed
  let some signature := prim.fromHex hex | throw failed
  if identity.verify prim source data signature then return some signature
  throw ⟨.permissionError, "Invalid cryptographic signature from node '" ++ source ++ "'"⟩

/-- Merge the clock of the delta into the status of the peer, or register the peer. -/
def notePeer (peers : PyDict String PeerStatus) (source : String) (clock : CompactVectorClock)
    (now : ℚ) : PyDict String PeerStatus :=
  if source = "" then peers
  else match peers.get? source with
    | some status => peers.set source ⟨status.vectorClock.merge clock, now⟩
    | none => peers.set source ⟨clock, now⟩

/-- The payload for the bridge, if there is a bridge and the delta has mutations. -/
def bridgePayload (g : GossipReceiver β) (payload : Json) : Except PyError (Option Json) :=
  if g.bridge.isSome then mutationsPayload payload else .ok none

/-- The part of `process_sync_response_async` before anything changes: decrypt, validate, verify. -/
def openRequest (g : GossipReceiver β) (rt : Runtime) (prim : Primitives β) (request : String) :
    Except PyError (OpenedRequest β) := do
  let some envelope := Json.loads (PyText.ofString request) | throw ⟨.valueError, "Expecting value"⟩
  let aad ← textItem envelope "aad"
  let ciphertext ← textItem envelope "ciphertext_hex"
  let some blob := prim.fromHex ciphertext |
    throw ⟨.valueError, "non-hexadecimal number found in fromhex() arg"⟩
  let some data := prim.decrypt blob aad | throw ⟨.valueError, "InvalidTag"⟩
  let some text := prim.decode data | throw ⟨.valueError, "invalid start byte"⟩
  let some deltaDict := Json.loads (PyText.ofString text) | throw ⟨.valueError, "Expecting value"⟩
  let delta ← validateDelta rt prim deltaDict
  let named := (envelope.get? "source_node").getD .null
  let source := if rt.truthy named then named else .str delta.sourceNode
  let signature ← g.verifyEnvelopeSignature rt prim envelope (rt.formatted source) data
  let applied ← g.bridgePayload delta.payload
  return { delta, source, data, signature, applied }

/-- The end of `process_sync_response_async`: the table of peers takes no name that is no text.
The verified name is returned with the delta. -/
def finish (g : GossipReceiver β) (opened : OpenedRequest β) (now : ℚ) :
    GossipReceiver β × Except PyError (ReceivedDelta × String) :=
  match opened.source with
  | .str source =>
    ({ g with peers := notePeer g.peers source opened.delta.vectorClock now },
      .ok (opened.delta, source))
  | _ => (g, .error ⟨.valueError, "Input should be a valid string"⟩)

/-- `process_sync_response_async`: the receiver, what was handed to the writer, and the delta with
the verified name. -/
def processSyncResponse (g : GossipReceiver β) (rt : Runtime) (prim : Primitives β)
    (writer : Writer) (request : String) (times : ℕ → ℚ) (now : ℚ) :
    GossipReceiver β × List SetArgs × Except PyError (ReceivedDelta × String) :=
  match g.openRequest rt prim request with
  | .error err => (g, [], .error err)
  | .ok opened =>
    match g.bridge, opened.applied with
    | some bridge, some payload =>
      let (bridge', writes, result) := bridge.applyReceivedPayload rt writer payload times
      let g' := { g with bridge := some bridge' }
      match result with
      | .error err => (g', writes, .error err)
      | .ok () => ((g'.finish opened now).1, writes, (g'.finish opened now).2)
    | _, _ => ((g.finish opened now).1, [], (g.finish opened now).2)

end GossipReceiver

/-! ## Attribution -/

/-- A write is recorded as one of a node: its reason and its origin name the node. -/
def SetArgs.RecordedAs (a : SetArgs) (node : String) : Prop :=
  a.reason = "sync_from_" ++ node ∧
    (a.metadata.bind (·.get? "origin")).bind Json.text? = some ("sync_" ++ node)

lemma origin_replicaMetadata (rt : Runtime) (source key valText : String) (precision : PyFloat) :
    (replicaMetadata rt source key valText precision).get? "origin" =
      some (.str ("sync_" ++ source)) := by
  unfold replicaMetadata
  rw [PyDict.get?_ofEntries (by simp)]
  rfl

lemma append_left_inj {pre s t : String} (h : pre ++ s = pre ++ t) : s = t := by
  have hlist := congrArg String.toList h
  rw [String.toList_append, String.toList_append] at hlist
  exact String.toList_inj.mp (List.append_cancel_left hlist)

/-- The name that is recorded is the one that the loop was given. -/
lemma recordedAs_setArgs_iff (rt : Runtime) (m : ReceivedMutation) {source node : String} :
    (m.setArgs rt source).RecordedAs node ↔ source = node := by
  constructor
  · intro hrecorded
    exact append_left_inj hrecorded.1
  · rintro rfl
    have horigin := origin_replicaMetadata rt source m.mutation.appliedKey (rt.pyStr m.decodedValue)
      (m.mutation.incomingPrecision rt)
    refine ⟨rfl, ?_⟩
    rw [ReceivedMutation.setArgs, Option.bind_some, horigin, Option.bind_some, Json.text?]

/-- Everything that the loop hands over comes from a record of the delta. -/
lemma exists_setArgs_of_mem_applyReceived {rt : Runtime} {writer : Writer} {source : String}
    {items : List Json} {kv : VerifiedKVStore} {times : ℕ → ℚ} {a : SetArgs}
    (ha : a ∈ (applyReceived rt writer source kv items times).2.1) :
    ∃ m : ReceivedMutation, a = m.setArgs rt source := by
  induction items generalizing kv times with
  | nil => exact absurd ha List.not_mem_nil
  | cons item items ih =>
      rw [applyReceived] at ha
      split at ha
      · exact absurd ha List.not_mem_nil
      · exact ih ha
      · rename_i m _
        split_ifs at ha
        · exact ih ha
        · exact ih ha
        · dsimp only at ha
          split at ha
          · exact ⟨m, List.mem_singleton.mp ha⟩
          · rcases List.mem_cons.mp ha with heq | hrest
            · exact ⟨m, heq⟩
            · exact ih hrest

lemma recordedAs_iff_of_mem {rt : Runtime} {writer : Writer} {b : StateSyncBridge} {payload : Json}
    {times : ℕ → ℚ} {a : SetArgs} {node : String}
    (ha : a ∈ (b.applyReceivedPayload rt writer payload times).2.1) :
    a.RecordedAs node ↔ payloadSource rt payload = node := by
  unfold StateSyncBridge.applyReceivedPayload at ha
  split at ha
  · split at ha
    · exact absurd ha List.not_mem_nil
    · split_ifs at ha
      · exact absurd ha List.not_mem_nil
      · split at ha
        · exact absurd ha List.not_mem_nil
        · obtain ⟨m, rfl⟩ := exists_setArgs_of_mem_applyReceived ha
          exact recordedAs_setArgs_iff rt m
  · exact absurd ha List.not_mem_nil

namespace GossipReceiver

variable {β : Type} {g : GossipReceiver β} {rt : Runtime} {prim : Primitives β}

lemma verify_of_verifyEnvelopeSignature {id : PeerIdentity β} (hid : g.identity = some id)
    {envelope : Json} {source : String} {data : β} {signature : Option β}
    (h : g.verifyEnvelopeSignature rt prim envelope source data = .ok signature) :
    ∃ sig, signature = some sig ∧ id.verify prim source data sig = true := by
  unfold verifyEnvelopeSignature at h
  rw [hid] at h
  dsimp only at h
  split_ifs at h with hmissing
  · cases h
  split at h
  · split at h
    · split_ifs at h with hverify
      exact ⟨_, (Except.ok.inj h).symm, hverify⟩
    · cases h
  · cases h

lemma openRequest_spec {request : String} {opened : OpenedRequest β}
    (h : g.openRequest rt prim request = .ok opened) :
    (∃ envelope, g.verifyEnvelopeSignature rt prim envelope (rt.formatted opened.source) opened.data =
      .ok opened.signature) ∧
    ∀ payload, opened.applied = some payload →
      mutationsPayload opened.delta.payload = .ok (some payload) := by
  unfold openRequest at h
  split at h
  · rename_i envelope _
    obtain ⟨aad, -, h⟩ := exists_of_bind_eq_ok h
    obtain ⟨ciphertext, -, h⟩ := exists_of_bind_eq_ok h
    split at h
    case h_2 => cases h
    split at h
    case h_2 => cases h
    split at h
    case h_2 => cases h
    split at h
    case h_2 => cases h
    obtain ⟨delta, -, h⟩ := exists_of_bind_eq_ok h
    obtain ⟨signature, hsignature, h⟩ := exists_of_bind_eq_ok h
    obtain ⟨applied, happlied, h⟩ := exists_of_bind_eq_ok h
    obtain rfl := Except.ok.inj h
    refine ⟨⟨envelope, hsignature⟩, ?_⟩
    rintro payload rfl
    unfold bridgePayload at happlied
    split_ifs at happlied
    · exact happlied
    · cases happlied
  · cases h

lemma get?_notePeer_of_ne {peers : PyDict String PeerStatus} {source peer : String}
    (hne : peer ≠ source) (clock : CompactVectorClock) (now : ℚ) :
    (notePeer peers source clock now).get? peer = peers.get? peer := by
  unfold notePeer
  split_ifs
  · rfl
  · cases peers.get? source with
    | some status => exact PyDict.get?_set_of_ne _ _ (Ne.symm hne)
    | none => exact PyDict.get?_set_of_ne _ _ (Ne.symm hne)

lemma finish_ok {opened : OpenedRequest β} {now : ℚ} {delta : ReceivedDelta} {source : String}
    (h : (g.finish opened now).2 = .ok (delta, source)) :
    opened.source = .str source ∧ opened.delta = delta ∧
      (g.finish opened now).1.peers = notePeer g.peers source delta.vectorClock now := by
  unfold finish at h ⊢
  split at h
  · rename_i named hnamed
    obtain ⟨rfl, rfl⟩ := Prod.mk.inj (Except.ok.inj h)
    rw [hnamed]
    exact ⟨rfl, rfl, rfl⟩
  · cases h

end GossipReceiver

/-- **Attribution of an accepted request** that hands over mutations.  The signature was verified
with the key under the name of the peer; the mutations are recorded as that node's, and no other
peer's clock moves, exactly when the audit payload names the same node. -/
theorem attribution_iff {β : Type} (rt : Runtime) (prim : Primitives β) (writer : Writer)
    (g : GossipReceiver β) (id : PeerIdentity β) (request : String) (times : ℕ → ℚ) (now : ℚ)
    (g' : GossipReceiver β) (writes : List SetArgs) (delta : ReceivedDelta) (source : String)
    (hid : g.identity = some id)
    (haccept : g.processSyncResponse rt prim writer request times now =
      (g', writes, .ok (delta, source)))
    (hwrites : writes ≠ []) :
    (∃ data signature, id.verify prim source data signature = true ∧
      (g.openRequest rt prim request).map (fun o => (o.data, o.signature)) =
        .ok (data, some signature)) ∧
    (((∀ a ∈ writes, a.RecordedAs source) ∧
        ∀ peer, g'.peers.get? peer ≠ g.peers.get? peer → peer = source) ↔
      ∃ payload, mutationsPayload delta.payload = .ok (some payload) ∧
        payloadSource rt payload = source) := by
  unfold GossipReceiver.processSyncResponse at haccept
  split at haccept
  · cases haccept
  rename_i opened hopen
  split at haccept
  case h_2 =>
    obtain ⟨-, hnone⟩ := Prod.mk.inj haccept
    exact absurd (Prod.mk.inj hnone).1.symm hwrites
  rename_i bridge payload hbridge happlied
  dsimp only at haccept
  split at haccept
  · cases haccept
  obtain ⟨hg, hrest⟩ := Prod.mk.inj haccept
  obtain ⟨rfl, hresult⟩ := Prod.mk.inj hrest
  obtain ⟨hsource, rfl, hpeers⟩ := GossipReceiver.finish_ok hresult
  rw [hg] at hpeers
  obtain ⟨⟨envelope, hsignature⟩, hpayload⟩ := GossipReceiver.openRequest_spec hopen
  obtain ⟨signature, hsome, hverify⟩ :=
    GossipReceiver.verify_of_verifyEnvelopeSignature hid hsignature
  rw [hsource] at hverify
  refine ⟨⟨opened.data, signature, hverify, ?_⟩, ?_⟩
  · rw [hopen, Except.map, hsome]
  -- every write names the node of the payload, and the table of peers has changed at the source
  have hmutations := hpayload payload happlied
  have hothers : ∀ peer, g'.peers.get? peer ≠ g.peers.get? peer → peer = source := by
    intro peer hchanged
    by_contra hne
    refine hchanged ?_
    rw [hpeers]
    exact GossipReceiver.get?_notePeer_of_ne hne _ _
  constructor
  · rintro ⟨hrecorded, -⟩
    obtain ⟨a, ha⟩ := List.exists_mem_of_ne_nil _ hwrites
    exact ⟨payload, hmutations, (recordedAs_iff_of_mem ha).mp (hrecorded a ha)⟩
  · rintro ⟨payload', hmutations', hnamed⟩
    obtain rfl := Option.some.inj (Except.ok.inj (hmutations.symm.trans hmutations'))
    exact ⟨fun a ha => (recordedAs_iff_of_mem ha).mpr hnamed, hothers⟩

/-- Byte strings written as they are, and signatures that repeat the key and the data. -/
def Primitives.sample : Primitives String where
  fromHex := some
  decrypt blob _ := some blob
  decode := some
  verify key data signature := decide (signature = key ++ data)

/-- A payload with one mutation that gives its sender the name `named`. -/
def samplePayload (named : String) : Json :=
  .obj [("source_node", .str named), ("mutations", .arr [.obj [("key", .str "k")]])]

/-- A delta of `b` with this payload. -/
def sampleDelta (named : String) : Json :=
  .obj [("source_node", .str "b"), ("payload", samplePayload named)]

/-- The envelope around this delta, signed by `b`. -/
def sampleEnvelope (named : String) : Json :=
  .obj [("source_node", .str "b"), ("aad", .str ""),
    ("ciphertext_hex", .str (sampleDelta named).dumps),
    ("signature_hex", .str ("key of b" ++ (sampleDelta named).dumps))]

/-- A node that trusts `b`. -/
def sampleIdentity : PeerIdentity String :=
  ⟨"c", "key of c", (∅ : PyDict String String).set "b" "key of b"⟩

def sampleReceiver : GossipReceiver String :=
  ⟨some sampleIdentity, some (.init .init "c"), ∅⟩

def sampleReceived (named : String) : ReceivedDelta := ⟨"b", ⟨∅⟩, samplePayload named⟩

lemma openRequest_sample (named : String) :
    sampleReceiver.openRequest Runtime.sample Primitives.sample (sampleEnvelope named).dumps =
      .ok ⟨sampleReceived named, .str "b", (sampleDelta named).dumps,
        some ("key of b" ++ (sampleDelta named).dumps), some (samplePayload named)⟩ := by
  have henvelope : Json.loads (PyText.ofString (sampleEnvelope named).dumps) =
      some (sampleEnvelope named) :=
    Json.loads_dumps (by simp [sampleEnvelope, Json.Distinct, Json.DistinctMembers])
  have hdelta : Json.loads (PyText.ofString (sampleDelta named).dumps) = some (sampleDelta named) :=
    Json.loads_dumps (by
      simp [sampleDelta, samplePayload, Json.Distinct, Json.DistinctMembers, Json.DistinctItems])
  have haad : GossipReceiver.textItem (sampleEnvelope named) "aad" = .ok "" := by
    simp [GossipReceiver.textItem, sampleEnvelope, PyDict.find]
  have hciphertext : GossipReceiver.textItem (sampleEnvelope named) "ciphertext_hex" =
      .ok (sampleDelta named).dumps := by
    simp [GossipReceiver.textItem, sampleEnvelope, PyDict.find]
  have hvalid : GossipReceiver.validateDelta Runtime.sample Primitives.sample (sampleDelta named) =
      .ok (sampleReceived named) := rfl
  have hsource : (sampleEnvelope named).get? "source_node" = some (.str "b") := by
    simp [Json.get?, sampleEnvelope, PyDict.find]
  have hsignature : (sampleEnvelope named).get? "signature_hex" =
      some (.str ("key of b" ++ (sampleDelta named).dumps)) := by
    simp [Json.get?, sampleEnvelope, PyDict.find]
  have hverify : sampleReceiver.verifyEnvelopeSignature Runtime.sample Primitives.sample
      (sampleEnvelope named) "b" (sampleDelta named).dumps =
      .ok (some ("key of b" ++ (sampleDelta named).dumps)) := by
    simp [GossipReceiver.verifyEnvelopeSignature, hsignature, sampleReceiver, Runtime.truthy,
      Primitives.sample, PeerIdentity.verify, sampleIdentity]
    rfl
  have hpayload : sampleReceiver.bridgePayload (samplePayload named) =
      .ok (some (samplePayload named)) := rfl
  unfold GossipReceiver.openRequest
  have hhex : ∀ text, Primitives.sample.fromHex text = some text := fun _ => rfl
  have hdecrypt : ∀ blob aad, Primitives.sample.decrypt blob aad = some blob := fun _ _ => rfl
  have hdecode : ∀ data, Primitives.sample.decode data = some data := fun _ => rfl
  have hnamed : Runtime.sample.truthy (.str "b") = true := rfl
  have hformatted : Runtime.sample.formatted (.str "b") = "b" := rfl
  have hpure : (sampleReceived named).payload = samplePayload named := rfl
  simp only [henvelope, haad, hciphertext, hsource, hhex, hdecrypt, hdecode, hdelta, hvalid, hnamed,
    hformatted, hverify, hpure, hpayload, bind, Except.bind, Option.getD_some, if_true, pure,
    Except.pure]

/-- What the receiver makes of the request. -/
def sampleOutcome (named : String) :
    GossipReceiver String × List SetArgs × Except PyError (ReceivedDelta × String) :=
  sampleReceiver.processSyncResponse Runtime.sample Primitives.sample (setSyncWriter Runtime.sample)
    (sampleEnvelope named).dumps (fun _ => 1) 1

def sampleMutation : ReceivedMutation where
  mutation := ⟨0, "k", none, some (.finite (9 / 10)), some (.finite 1), none, none,
    some (.finite 0)⟩
  structured := none

lemma exists_sampleOutcome_eq (named : String) :
    ∃ g', sampleOutcome named = (g', [sampleMutation.setArgs Runtime.sample named],
      .ok (sampleReceived named, "b")) := by
  unfold sampleOutcome GossipReceiver.processSyncResponse
  rw [openRequest_sample]
  exact ⟨_, rfl⟩

/-- An honest request. -/
theorem attribution_iff_honest :
    ∃ g' : GossipReceiver String, (∃ data signature, sampleIdentity.verify Primitives.sample "b" data signature = true ∧
      (sampleReceiver.openRequest Runtime.sample Primitives.sample (sampleEnvelope "b").dumps).map
        (fun o => (o.data, o.signature)) = .ok (data, some signature)) ∧
    (((∀ a ∈ [sampleMutation.setArgs Runtime.sample "b"], a.RecordedAs "b") ∧ ∀ peer,
        g'.peers.get? peer ≠ sampleReceiver.peers.get? peer → peer = "b") ↔
      ∃ payload, mutationsPayload (sampleReceived "b").payload = .ok (some payload) ∧
        payloadSource Runtime.sample payload = "b") := by
  obtain ⟨g', hresult⟩ := exists_sampleOutcome_eq "b"
  exact ⟨g', attribution_iff Runtime.sample Primitives.sample (setSyncWriter Runtime.sample)
    sampleReceiver sampleIdentity (sampleEnvelope "b").dumps (fun _ => 1) 1 g' _
    (sampleReceived "b") "b" rfl hresult (List.cons_ne_nil _ _)⟩

/-- **A borrowed name.** A node that the receiver trusts has its mutations recorded as those of
another node. -/
theorem misattributed :
    ¬ ∀ (rt : Runtime) (prim : Primitives String) (writer : Writer) (g : GossipReceiver String)
      (id : PeerIdentity String) (request : String) (times : ℕ → ℚ) (now : ℚ)
      (g' : GossipReceiver String) (writes : List SetArgs) (delta : ReceivedDelta)
      (source : String), g.identity = some id →
      g.processSyncResponse rt prim writer request times now = (g', writes, .ok (delta, source)) →
      ∀ a ∈ writes, a.RecordedAs source := by
  intro h
  obtain ⟨g', hresult⟩ := exists_sampleOutcome_eq "a"
  have hrecorded := h Runtime.sample Primitives.sample (setSyncWriter Runtime.sample) sampleReceiver
    sampleIdentity (sampleEnvelope "a").dumps (fun _ => 1) 1 g' _ (sampleReceived "a") "b" rfl hresult
    _ (List.mem_singleton_self _)
  have hnames := (recordedAs_setArgs_iff Runtime.sample sampleMutation).mp hrecorded
  exact absurd hnames (by decide)

end AtlasMemory
