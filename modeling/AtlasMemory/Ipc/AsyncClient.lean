import AtlasMemory.Foundations.GuardedRuns
import AtlasMemory.Ipc.UdsClient

/-!
# The asynchronous client of the daemon's socket

Calls on one `AtlasDaemonClient`, interleaved at their await points.  A call waits for the lock of
the client, connects if there is no usable connection, writes its frame, and reads the header and
the payload of the next frame that comes over the connection.  Every exception within the exchange,
a timeout included, closes the connection; a cancellation is no `Exception` and closes nothing.

The daemon answers the requests of a connection in their order.  What comes over an abandoned
connection reaches nobody, so only the current connection has a state.
-/

namespace AtlasMemory

namespace AsyncClient

/-- Where the call that holds the lock waits. -/
inductive Phase
  /-- In `connect`. -/
  | connecting
  /-- In `writer.drain()`. -/
  | draining
  /-- In `reader.readexactly(4)`. -/
  | header
  /-- In `reader.readexactly(n)`. -/
  | body (n : ℕ)
  /-- In `close`, after an exception. -/
  | closing
  deriving DecidableEq

/-- Whether a request is out and its response not read yet. -/
def Phase.inExchange : Phase → Bool
  | .draining | .header | .body _ => true
  | .connecting | .closing => false

/-- A call: its number, and the bytes of its request. -/
structure Call where
  id : ℕ
  payload : List UInt8
  deriving DecidableEq

/-- The client with its connection, and what the daemon and the calls have done. -/
structure State where
  /-- The number of the next call. -/
  nextCall : ℕ
  /-- The calls that wait for the lock. -/
  waiting : List Call
  /-- The call that holds the lock. -/
  holder : Option (Call × Phase)
  /-- `is_connected`. -/
  connected : Bool
  /-- The calls whose requests the daemon has still to answer. -/
  requests : List ℕ
  /-- The bytes that the daemon has sent and that have not arrived. -/
  inFlight : List UInt8
  /-- The buffer of the reader. -/
  buffer : List UInt8
  /-- The responses of the daemon, with the calls whose requests they answer. -/
  answers : List (ℕ × List UInt8)
  /-- The responses whose results were returned, with the calls that returned them. -/
  returned : List (ℕ × List UInt8)
  deriving DecidableEq

def State.initial : State := ⟨0, [], none, false, [], [], [], [], []⟩

/-- What can happen next. -/
inductive Event
  /-- A call begins. -/
  | call (payload : List UInt8)
  /-- A waiting call gets the lock. -/
  | acquire (id : ℕ)
  /-- `connect` returns with a new connection. -/
  | connected
  /-- `connect` gives up. -/
  | connectFailed
  | drained
  | readHeader
  | readBody
  /-- An exception within the exchange: a timeout, a reset, the end of the stream. -/
  | fault
  /-- `close` is done. -/
  | closed
  /-- A call is cancelled where it waits. -/
  | cancel (id : ℕ)
  /-- The daemon answers the oldest request of the connection. -/
  | answer (response : List UInt8)
  /-- Bytes arrive. -/
  | deliver (n : ℕ)
  /-- The connection is lost. -/
  | lost
  deriving DecidableEq

namespace State

def release (s : State) : State := { s with holder := none }

/-- Write the frame; a payload that is too long raises before anything is written. -/
def send (s : State) (c : Call) : State :=
  match RpcRequest.packLength c.payload.length with
  | some _ => { s with holder := some (c, .draining), requests := s.requests ++ [c.id] }
  | none => s.release

/-- `close` begins. -/
def close (s : State) (c : Call) : State :=
  { s with holder := some (c, .closing), connected := false }

/-- The end of the exchange: the result is returned, or the response raises. -/
def finish (result : List UInt8 → Option Json) (s : State) (c : Call) (data : List UInt8) :
    State :=
  match result data with
  | some _ => { s.release with returned := s.returned ++ [(c.id, data)] }
  | none => s.close c

end State

/-- The response that the bytes stand for; `validate` is the check of the wire model, with the
result of a valid response that carries no error. -/
def resultOf (validate : Json → Option Json) (data : List UInt8) : Option Json :=
  (UdsClient.decode data).bind validate

variable (validate : Json → Option Json)

/-- One step of the client, the daemon or the connection; `none` when it is impossible. -/
def step (s : State) : Event → Option State
  | .call payload => some { s with
      nextCall := s.nextCall + 1
      waiting := s.waiting ++ [⟨s.nextCall, payload⟩] }
  | .acquire id =>
    match s.holder, s.waiting.find? fun c => c.id = id with
    | none, some c =>
      let s := { s with waiting := s.waiting.filter fun c => c.id ≠ id }
      if s.connected then some (s.send c) else some { s with holder := some (c, .connecting) }
    | _, _ => none
  | .connected =>
    match s.holder with
    | some (c, .connecting) =>
      let fresh := { s with connected := true, requests := [], inFlight := [], buffer := [] }
      some (fresh.send c)
    | _ => none
  | .connectFailed =>
    match s.holder with
    | some (_, .connecting) => some s.release
    | _ => none
  | .drained =>
    match s.holder with
    | some (c, .draining) => some { s with holder := some (c, .header) }
    | _ => none
  | .readHeader =>
    match s.holder with
    | some (c, .header) =>
      if 4 ≤ s.buffer.length then
        some { s with
          holder := some (c, .body (UdsClient.unpackLength (s.buffer.take 4)))
          buffer := s.buffer.drop 4 }
      else none
    | _ => none
  | .readBody =>
    match s.holder with
    | some (c, .body n) =>
      if n ≤ s.buffer.length then
        let rest := { s with buffer := s.buffer.drop n }
        some (rest.finish (resultOf validate) c (s.buffer.take n))
      else none
    | _ => none
  | .fault =>
    match s.holder with
    | some (c, phase) => if phase.inExchange then some (s.close c) else none
    | none => none
  | .closed =>
    match s.holder with
    | some (_, .closing) => some s.release
    | _ => none
  | .cancel id =>
    match s.holder with
    | some (c, _) =>
      if c.id = id then
        -- the lock is released on the way out; only a call in `close` has reset the streams
        some s.release
      else some { s with waiting := s.waiting.filter fun c => c.id ≠ id }
    | none => some { s with waiting := s.waiting.filter fun c => c.id ≠ id }
  | .answer response =>
    match s.requests, RpcRequest.packLength response.length with
    | id :: rest, some header => some { s with
        requests := rest
        inFlight := s.inFlight ++ header ++ response
        answers := s.answers ++ [(id, response)] }
    | _, _ => none
  | .deliver n => some { s with
      buffer := s.buffer ++ s.inFlight.take n
      inFlight := s.inFlight.drop n }
  | .lost => some { s with connected := false }

/-! ## The claim on responses -/

/-- Every call that returned a result returned a response of the daemon to its own request. -/
def OwnResponses (s : State) : Prop := ∀ r ∈ s.returned, r ∈ s.answers

/-- The event does not cancel a call whose request is out and whose response was not read. -/
def sparesExchange (s : State) : Event → Bool
  | .cancel id => s.holder.all fun h => h.1.id ≠ id || !h.2.inExchange
  | _ => true

/-- Nothing is on its way over the connection. -/
def Quiet (s : State) : Prop := s.requests = [] ∧ s.inFlight = [] ∧ s.buffer = []

/-- What is on its way over the connection while the call `id` is in a phase: its own request, or
the response to it. -/
def Expects (s : State) (id : ℕ) : Phase → Prop
  | .connecting | .closing => s.connected = false
  | .draining | .header =>
    s.requests = [id] ∧ s.inFlight = [] ∧ s.buffer = [] ∨
      s.requests = [] ∧ ∃ response header, (id, response) ∈ s.answers ∧
        RpcRequest.packLength response.length = some header ∧
        s.buffer ++ s.inFlight = header ++ response
  | .body n =>
    s.requests = [] ∧ ∃ response, (id, response) ∈ s.answers ∧ response.length = n ∧
      s.buffer ++ s.inFlight = response

/-- The invariant: a usable connection is quiet whenever the lock is free. -/
def Consistent (s : State) : Prop :=
  OwnResponses s ∧
  match s.holder with
  | none => s.connected = true → Quiet s
  | some (c, phase) => Expects s c.id phase

lemma unpackLength_of_packLength {n : ℕ} {header : List UInt8}
    (h : RpcRequest.packLength n = some header) :
    header.length = 4 ∧ UdsClient.unpackLength header = n := by
  unfold RpcRequest.packLength at h
  split_ifs at h with hn
  rw [Option.some.injEq] at h
  rw [← h]
  refine ⟨rfl, ?_⟩
  simp only [UdsClient.unpackLength, List.foldl_cons, List.foldl_nil, UInt8.toNat_ofNat']
  omega

/-! ## One step -/

variable {validate : Json → Option Json} {s s' : State}

/-- A step that leaves the lock, the connection and the results as they are. -/
lemma consistent_of_eq (h : Consistent s) (hholder : s'.holder = s.holder)
    (hconn : s'.connected = s.connected) (hreq : s'.requests = s.requests)
    (hflight : s'.inFlight = s.inFlight) (hbuf : s'.buffer = s.buffer)
    (hans : s'.answers = s.answers) (hret : s'.returned = s.returned) : Consistent s' := by
  simp only [Consistent, OwnResponses, Quiet, hholder, hconn, hreq, hflight, hbuf, hans, hret]
  refine ⟨h.1, ?_⟩
  have hstate := h.2
  cases hs : s.holder with
  | none =>
      rw [hs] at hstate
      exact hstate
  | some held =>
      rw [hs] at hstate
      obtain ⟨c, phase⟩ := held
      cases phase <;> simpa only [Expects, hconn, hreq, hflight, hbuf, hans] using hstate

/-- On an unusable connection the lock can be released at any time. -/
lemma consistent_release (hown : OwnResponses s) (hconn : s.connected = false) :
    Consistent s.release :=
  ⟨hown, fun htrue => absurd (hconn.symm.trans htrue) (by decide)⟩

lemma consistent_close (hown : OwnResponses s) (c : Call) : Consistent (s.close c) := ⟨hown, rfl⟩

lemma consistent_send (hown : OwnResponses s) (hquiet : Quiet s) (c : Call) :
    Consistent (s.send c) := by
  unfold State.send
  cases hpack : RpcRequest.packLength c.payload.length with
  | none => exact ⟨hown, fun _ => hquiet⟩
  | some header =>
      refine ⟨hown, Or.inl ⟨?_, hquiet.2.1, hquiet.2.2⟩⟩
      show s.requests ++ [c.id] = [c.id]
      rw [hquiet.1, List.nil_append]

lemma consistent_acquire {id : ℕ} (h : Consistent s)
    (hstep : step validate s (.acquire id) = some s') : Consistent s' := by
  simp only [step] at hstep
  split at hstep
  · rename_i c hholder hfind
    have hstate := h.2
    rw [hholder] at hstate
    split_ifs at hstep with hconn
    · rw [Option.some.injEq] at hstep
      rw [← hstep]
      exact @consistent_send { s with waiting := s.waiting.filter fun c => c.id ≠ id } h.1
        (hstate hconn) c
    · rw [Option.some.injEq] at hstep
      rw [← hstep]
      refine ⟨h.1, ?_⟩
      simpa [Expects] using hconn
  · cases hstep

/-- The header of the awaited response is read: what is left is its payload. -/
lemma consistent_readHeader (h : Consistent s)
    (hstep : step validate s .readHeader = some s') : Consistent s' := by
  simp only [step] at hstep
  split at hstep
  · rename_i c hholder
    have hstate := h.2
    rw [hholder] at hstate
    split_ifs at hstep with hlen
    rw [Option.some.injEq] at hstep
    rw [← hstep]
    rcases hstate with ⟨-, -, hbuf⟩ | ⟨hreq, response, header, hans, hpack, hbytes⟩
    · rw [hbuf] at hlen
      exact absurd hlen (by decide)
    · obtain ⟨hfour, hunpack⟩ := unpackLength_of_packLength hpack
      have htake : s.buffer.take 4 = header := by
        have h4 := congrArg (List.take 4) hbytes
        rwa [List.take_append_of_le_length hlen, List.take_append_of_le_length hfour.ge,
          List.take_of_length_le hfour.le] at h4
      have hdrop : s.buffer.drop 4 ++ s.inFlight = response := by
        have h4 := congrArg (List.drop 4) hbytes
        rwa [List.drop_append_of_le_length hlen, List.drop_append_of_le_length hfour.ge,
          List.drop_of_length_le hfour.le, List.nil_append] at h4
      refine ⟨h.1, hreq, response, hans, ?_, hdrop⟩
      rw [htake, hunpack]
  · cases hstep

/-- The payload of the awaited response is read: nothing is left. -/
lemma consistent_readBody (h : Consistent s)
    (hstep : step validate s .readBody = some s') : Consistent s' := by
  simp only [step] at hstep
  split at hstep
  · rename_i c n hholder
    have hstate := h.2
    rw [hholder] at hstate
    obtain ⟨hreq, response, hans, hlen, hbytes⟩ := hstate
    split_ifs at hstep with hn
    rw [Option.some.injEq] at hstep
    rw [← hstep]
    have hsum : s.buffer.length + s.inFlight.length = n := by
      rw [← List.length_append, hbytes, hlen]
    have hflight : s.inFlight = [] := List.length_eq_zero_iff.mp (by omega)
    have hbuf : s.buffer = response := by
      rw [hflight, List.append_nil] at hbytes
      exact hbytes
    have htake : s.buffer.take n = response := by
      rw [hbuf, ← hlen, List.take_length]
    have hdrop : s.buffer.drop n = [] := by
      rw [hbuf, ← hlen, List.drop_length]
    unfold State.finish
    split
    · refine ⟨fun r hr => ?_, fun _ => ⟨hreq, hflight, hdrop⟩⟩
      rcases List.mem_append.mp hr with hr | hr
      · exact h.1 r hr
      · rw [List.mem_singleton.mp hr, htake]
        exact hans
    · exact consistent_close h.1 c
  · cases hstep

/-- The only request that can be open is that of the call in the exchange. -/
lemma consistent_answer {response : List UInt8} (h : Consistent s)
    (hstep : step validate s (.answer response) = some s') : Consistent s' := by
  simp only [step] at hstep
  split at hstep
  · rename_i id rest header hreq hpack
    rw [Option.some.injEq] at hstep
    rw [← hstep]
    have hgrow : ∀ r ∈ s.answers, r ∈ s.answers ++ [(id, response)] := fun r hr =>
      List.mem_append_left _ hr
    refine ⟨fun r hr => hgrow r (h.1 r hr), ?_⟩
    have hstate := h.2
    cases hholder : s.holder with
    | none =>
        rw [hholder] at hstate
        intro hconn
        have hnil := (hstate hconn).1
        rw [hreq] at hnil
        cases hnil
    | some held =>
        obtain ⟨c, phase⟩ := held
        rw [hholder] at hstate
        have hown : s.requests = [c.id] ∧ s.inFlight = [] ∧ s.buffer = [] →
            rest = [] ∧ ∃ response' header', (c.id, response') ∈ s.answers ++ [(id, response)] ∧
              RpcRequest.packLength response'.length = some header' ∧
              s.buffer ++ (s.inFlight ++ header ++ response) = header' ++ response' := by
          rintro ⟨hone, hflight, hbuf⟩
          rw [hreq] at hone
          obtain ⟨hid, hrest⟩ := List.cons.inj hone
          refine ⟨hrest, response, header, ?_, hpack, ?_⟩
          · rw [hid]
            exact List.mem_append_right _ (List.mem_singleton_self _)
          · rw [hflight, hbuf, List.nil_append, List.nil_append]
        cases phase with
        | connecting | closing => exact hstate
        | draining | header =>
            rcases hstate with hout | ⟨hnil, -⟩
            · exact Or.inr (hown hout)
            · rw [hreq] at hnil
              cases hnil
        | body n =>
            have hnil := hstate.1
            rw [hreq] at hnil
            cases hnil
  · cases hstep

lemma consistent_deliver (h : Consistent s) (n : ℕ) :
    Consistent { s with buffer := s.buffer ++ s.inFlight.take n, inFlight := s.inFlight.drop n } := by
  have hbytes : (s.buffer ++ s.inFlight.take n) ++ s.inFlight.drop n = s.buffer ++ s.inFlight := by
    rw [List.append_assoc, List.take_append_drop]
  have hquiet : s.requests = [] ∧ s.inFlight = [] ∧ s.buffer = [] →
      s.inFlight.drop n = [] ∧ s.buffer ++ s.inFlight.take n = [] := by
    rintro ⟨-, hflight, hbuf⟩
    rw [hflight, hbuf]
    exact ⟨List.drop_nil, List.take_nil⟩
  refine ⟨h.1, ?_⟩
  have hstate := h.2
  cases hholder : s.holder with
  | none =>
      rw [hholder] at hstate
      intro hconn
      exact ⟨(hstate hconn).1, hquiet (hstate hconn)⟩
  | some held =>
      obtain ⟨c, phase⟩ := held
      rw [hholder] at hstate
      cases phase with
      | connecting | closing => exact hstate
      | draining | header =>
          rcases hstate with ⟨hreq, hflight, hbuf⟩ | ⟨hreq, response, header, hans, hpack, hall⟩
          · refine Or.inl ⟨hreq, ?_, ?_⟩
            · show s.inFlight.drop n = []
              rw [hflight, List.drop_nil]
            · show s.buffer ++ s.inFlight.take n = []
              rw [hflight, hbuf, List.take_nil, List.nil_append]
          · exact Or.inr ⟨hreq, response, header, hans, hpack, hbytes.trans hall⟩
      | body k =>
          obtain ⟨hreq, response, hans, hlen, hall⟩ := hstate
          exact ⟨hreq, response, hans, hlen, hbytes.trans hall⟩

lemma consistent_lost (h : Consistent s) : Consistent { s with connected := false } := by
  refine ⟨h.1, ?_⟩
  have hstate := h.2
  cases hholder : s.holder with
  | none => exact nofun
  | some held =>
      obtain ⟨c, phase⟩ := held
      rw [hholder] at hstate
      cases phase with
      | connecting | closing => rfl
      | draining | header | body n => exact hstate

/-- Without a cancellation in the exchange, every step keeps the invariant. -/
lemma consistent_step {e : Event} (h : Consistent s) (hspares : sparesExchange s e = true)
    (hstep : step validate s e = some s') : Consistent s' := by
  cases e with
  | call payload =>
      rw [step, Option.some.injEq] at hstep
      rw [← hstep]
      exact consistent_of_eq h rfl rfl rfl rfl rfl rfl rfl
  | acquire id => exact consistent_acquire h hstep
  | connected =>
      simp only [step] at hstep
      split at hstep
      · rw [Option.some.injEq] at hstep
        rw [← hstep]
        exact @consistent_send { s with
          connected := true, requests := [], inFlight := [], buffer := [] } h.1 ⟨rfl, rfl, rfl⟩ _
      · cases hstep
  | connectFailed =>
      simp only [step] at hstep
      split at hstep
      · rename_i c hholder
        have hstate := h.2
        rw [hholder] at hstate
        rw [Option.some.injEq] at hstep
        rw [← hstep]
        exact consistent_release h.1 hstate
      · cases hstep
  | drained =>
      simp only [step] at hstep
      split at hstep
      · rename_i c hholder
        have hstate := h.2
        rw [hholder] at hstate
        rw [Option.some.injEq] at hstep
        rw [← hstep]
        exact ⟨h.1, hstate⟩
      · cases hstep
  | readHeader => exact consistent_readHeader h hstep
  | readBody => exact consistent_readBody h hstep
  | fault =>
      simp only [step] at hstep
      split at hstep
      · split_ifs at hstep
        rw [Option.some.injEq] at hstep
        rw [← hstep]
        exact consistent_close h.1 _
      · cases hstep
  | closed =>
      simp only [step] at hstep
      split at hstep
      · rename_i c hholder
        have hstate := h.2
        rw [hholder] at hstate
        rw [Option.some.injEq] at hstep
        rw [← hstep]
        exact consistent_release h.1 hstate
      · cases hstep
  | cancel id =>
      simp only [step] at hstep
      split at hstep
      · rename_i c phase hholder
        split_ifs at hstep with hid
        · rw [Option.some.injEq] at hstep
          rw [← hstep]
          have hstate := h.2
          rw [hholder] at hstate
          have hphase : phase.inExchange = false := by
            simpa [sparesExchange, hholder, hid] using hspares
          cases phase with
          | connecting | closing => exact consistent_release h.1 hstate
          | draining | header | body n => cases hphase
        · rw [Option.some.injEq] at hstep
          rw [← hstep]
          exact consistent_of_eq h rfl rfl rfl rfl rfl rfl rfl
      · rw [Option.some.injEq] at hstep
        rw [← hstep]
        exact consistent_of_eq h rfl rfl rfl rfl rfl rfl rfl
  | answer response => exact consistent_answer h hstep
  | deliver n =>
      rw [step, Option.some.injEq] at hstep
      rw [← hstep]
      exact consistent_deliver h n
  | lost =>
      rw [step, Option.some.injEq] at hstep
      rw [← hstep]
      exact consistent_lost h

lemma consistent_initial : Consistent State.initial := ⟨nofun, nofun⟩

/-! ## Runs -/

/-- In a run in which no call is cancelled between its request and its response, every call that
returns a result returns the response to its own request. -/
theorem own_responses_of_spared {events : List Event}
    (hrun : GuardedRun.run (step validate) sparesExchange State.initial events = some s) :
    OwnResponses s :=
  (GuardedRun.run_invariant (fun _ _ _ h hg hstep => consistent_step h hg hstep) hrun
    consistent_initial).1

/-- The `result` of a response object. -/
def sampleValidate : Json → Option Json
  | .obj members => PyDict.find "result" members
  | _ => none

def sampleResponse (text : String) : List UInt8 :=
  (Json.dumps (.obj [("result", .str text)])).toUTF8.data.toList

/-- Two calls one after the other; the first one is cancelled before its response arrives, if
`cancelled` says so, and otherwise reads it. -/
def twoCalls (cancelled : Bool) : List Event :=
  [.call [1], .acquire 0, .connected, .drained] ++
    (if cancelled then [.cancel 0, .answer (sampleResponse "first")]
    else [.answer (sampleResponse "first"), .deliver 100, .readHeader, .readBody]) ++
    [.call [2], .acquire 1, .drained, .answer (sampleResponse "second"), .deliver 100,
      .readHeader, .readBody]

/-- The second call reads its own response when the first one has read its response. -/
theorem own_responses_of_spared_twoCalls : ∃ s,
    GuardedRun.run (step sampleValidate) sparesExchange State.initial (twoCalls false) = some s ∧
    s.returned = [(0, sampleResponse "first"), (1, sampleResponse "second")] ∧
    OwnResponses s := by
  have hrun : (GuardedRun.run (step sampleValidate) sparesExchange State.initial
      (twoCalls false)).map (fun s => s.returned) =
      some [(0, sampleResponse "first"), (1, sampleResponse "second")] := by decide +kernel
  obtain ⟨s, hs, hreturned⟩ := Option.map_eq_some_iff.mp hrun
  exact ⟨s, hs, hreturned, own_responses_of_spared hs⟩

/-- After a cancellation in the exchange the next call returns the response to the cancelled
one. -/
theorem late_response_returned : ¬ ∀ (validate : Json → Option Json) (events : List Event)
    (s : State), GuardedRun.run (step validate) (fun _ _ => true) State.initial events = some s →
    OwnResponses s := by
  intro hall
  have hrun : (GuardedRun.run (step sampleValidate) (fun _ _ => true) State.initial
      (twoCalls true)).map (fun s => (s.returned, s.answers)) =
      some ([(1, sampleResponse "first")],
        [(0, sampleResponse "first"), (1, sampleResponse "second")]) := by decide +kernel
  obtain ⟨s, hs, hlogs⟩ := Option.map_eq_some_iff.mp hrun
  obtain ⟨hreturned, hanswers⟩ := Prod.mk.inj hlogs
  have hown := hall sampleValidate (twoCalls true) s hs (1, sampleResponse "first")
    (by rw [hreturned]; exact List.mem_singleton_self _)
  rw [hanswers] at hown
  revert hown
  decide +kernel

end AsyncClient

end AtlasMemory
