import AtlasMemory.Server.Dispatcher
import Mathlib.Data.List.Forall2

/-!
# Every request is answered once

A request with an identifier is owed one response with an equal identifier, a notification none.
The connection pays what it owes, in order, exactly if every identifier survives the validation of
the response, no handler raises an exception whose text cannot be put into an error, and every
result can be written (`answeredOnce_iff`).  Otherwise the connection ends, or a response carries
another identifier.
-/

namespace AtlasMemory

namespace RpcDispatcher

variable {S R : Type} {d : RpcDispatcher S R} {s : S}

/-! ## What is owed, and when it is paid -/

/-- The identifier of the response that is owed to a request. -/
def owed : WireValue → Option WireValue
  | .obj members => if (rawId members).isNull then none else some (rawId members)
  | _ => some .null

/-- The identifiers of the responses that are owed to a message, in order. -/
def Frame.owed (f : Frame) : List WireValue :=
  match f.payload with
  | .error _ | .ok (.arr []) => [.null]
  | .ok (.arr (e :: es)) => (e :: es).filterMap RpcDispatcher.owed
  | .ok v => (RpcDispatcher.owed v).toList

/-- The responses carry the identifiers that are owed, in order. -/
def Pays (responses : List (JSONRPCResponse R)) (ids : List WireValue) : Prop :=
  List.Forall₂ (fun r v => RpcId.Equals r.id v) responses ids

/-- The connection stays open, and every message gets the responses that are owed to it. -/
def AnsweredOnce (frames : List Frame) (served : List (List (JSONRPCResponse R)) × Bool) : Prop :=
  served.2 = true ∧ List.Forall₂ (fun f responses => Pays responses f.owed) frames served.1

/-- The validation of the identifier gives an equal one. -/
def Echoed (d : RpcDispatcher S R) (id : WireValue) : Prop :=
  ∃ i, d.lib.validateId id = some i ∧ RpcId.Equals i id

/-- The outcome of a handler can be answered: a result can be written, and the text of an exception
can be taken and put into an error, where there is to be an answer. -/
def OutcomeAnswerable (writable : JSONRPCResponse R → Prop) (isNotification : Bool)
    (id : Option RpcId) : HandlerOutcome R → Prop
  | .result r => isNotification = true ∨ writable ⟨id, .result r⟩
  | .paramError text | .error text =>
      ∃ t, text = some t ∧ (isNotification = true ∨ t.asText.isSome = true)

/-- A request can be answered in a state: its identifier is echoed, and the outcome of the handler
that it reaches, if any, can be answered. -/
def Answerable (d : RpcDispatcher S R) (writable : JSONRPCResponse R → Prop) (s : S) :
    WireValue → Prop
  | .obj members =>
      ((rawId members).isNull = false → d.Echoed (rawId members)) ∧
        ∀ req handler, d.lib.validateRequest members = some req →
          d.handlers req.method = some handler →
            OutcomeAnswerable writable (rawId members).isNull req.id
              (handler s (req.params.getD [])).2
  | _ => True

/-- The requests of a batch can be answered, each in the state that it finds. -/
def BatchAnswerable (d : RpcDispatcher S R) (writable : JSONRPCResponse R → Prop) :
    S → List WireValue → Prop
  | _, [] => True
  | s, e :: es => d.Answerable writable s e ∧ d.BatchAnswerable writable (d.dispatch s e).1 es

/-- A single response can be written. -/
def Writable (d : RpcDispatcher S R) (r : JSONRPCResponse R) : Prop :=
  d.lib.dumpJson r = none ∨ d.lib.dumpJson r = some .unicode ∧ d.lib.dumps r = true

/-- A response can be written in a batch. -/
def BatchWritable (d : RpcDispatcher S R) (r : JSONRPCResponse R) : Prop := d.lib.dumps r = true

/-- The requests of a message can be answered. -/
def FrameAnswerable (d : RpcDispatcher S R) (s : S) (f : Frame) : Prop :=
  match f.payload with
  | .error _ => True
  | .ok (.arr es) => d.BatchAnswerable d.BatchWritable s es
  | .ok v => d.Answerable d.Writable s v

/-- The requests of all messages can be answered, each in the state that it finds. -/
def AllAnswerable (d : RpcDispatcher S R) : S → List Frame → Prop
  | _, [] => True
  | s, f :: fs => d.FrameAnswerable s f ∧ d.AllAnswerable (d.handleFrame s f).1 fs

/-! ## One request -/

/-- The result of a step is responses that pay what is owed and that can be written. -/
def PaysOk (writable : JSONRPCResponse R → Prop) (ids : List WireValue)
    (result : Except Closed (List (JSONRPCResponse R))) : Prop :=
  ∃ responses, result = .ok responses ∧ Pays responses ids ∧ ∀ r ∈ responses, writable r

/-- The responses of a dispatched request, as a list. -/
def responsesOf (result : Except Closed (Option (JSONRPCResponse R))) :
    Except Closed (List (JSONRPCResponse R)) :=
  result.map Option.toList

variable {writable : JSONRPCResponse R → Prop}

lemma paysOk_error {ids : List WireValue} {fault : Closed} :
    ¬ PaysOk writable ids (.error fault) := fun ⟨_, h, _⟩ => nomatch h

lemma paysOk_none : PaysOk writable [] (responsesOf (.ok none)) :=
  ⟨[], rfl, List.Forall₂.nil, fun _ h => absurd h List.not_mem_nil⟩

/-- A response that is built pays exactly if its identifier is echoed and it can be written. -/
lemma paysOk_respond {v : WireValue} {body : RpcBody R}
    (hbody : ∀ i, d.lib.validateId v = some i → writable ⟨i, body⟩) :
    PaysOk writable [v] (responsesOf (d.respond v body)) ↔ d.Echoed v := by
  rw [respond, WireLibrary.mkResponse, Echoed]
  cases hid : d.lib.validateId v with
  | none =>
      constructor
      · exact fun h => absurd h paysOk_error
      · rintro ⟨i, hi, -⟩
        cases hi
  | some i =>
      constructor
      · rintro ⟨responses, heq, hpays, -⟩
        obtain rfl := Except.ok.inj heq
        obtain ⟨hequal, -⟩ := List.forall₂_cons.mp hpays
        exact ⟨i, rfl, hequal⟩
      · rintro ⟨i', hi', hequal⟩
        obtain rfl := Option.some.inj hi'
        refine ⟨[⟨i, body⟩], rfl, List.Forall₂.cons hequal List.Forall₂.nil, fun r hr => ?_⟩
        rw [List.mem_singleton.mp hr]
        exact hbody i hid

lemma paysOk_respond_toValue {i : Option RpcId} {v : WireValue} {body : RpcBody R} :
    PaysOk writable [v] (responsesOf (d.respond (RpcId.toValue i) body)) ↔
      RpcId.Equals i v ∧ writable ⟨i, body⟩ := by
  rw [respond, WireLibrary.mkResponse_toValue]
  constructor
  · rintro ⟨responses, heq, hpays, hwritable⟩
    obtain rfl := Except.ok.inj heq
    exact ⟨(List.forall₂_cons.mp hpays).1, hwritable _ (List.mem_singleton_self _)⟩
  · rintro ⟨hequal, hwritable⟩
    refine ⟨[⟨i, body⟩], rfl, List.Forall₂.cons hequal List.Forall₂.nil, fun r hr => ?_⟩
    rw [List.mem_singleton.mp hr]
    exact hwritable

/-- An exception of a handler is answered exactly if its text allows it. -/
lemma paysOk_respondError {isNotification : Bool} {i : Option RpcId} {v : WireValue}
    {mkError : String → JSONRPCError} {text : Option PyText}
    (herror : ∀ e, writable ⟨i, .error e⟩) :
    PaysOk writable (if isNotification then [] else [v])
        (responsesOf (d.respondError isNotification i mkError text)) ↔
      (isNotification = false → RpcId.Equals i v) ∧
        ∃ t, text = some t ∧ (isNotification = true ∨ t.asText.isSome = true) := by
  cases text with
  | none => exact ⟨fun h => absurd h paysOk_error, fun h => by obtain ⟨-, t, ht, -⟩ := h; cases ht⟩
  | some t =>
      cases isNotification with
      | true => exact ⟨fun _ => ⟨nofun, t, rfl, Or.inl rfl⟩, fun _ => paysOk_none⟩
      | false =>
          rw [respondError]
          cases htext : t.asText with
          | none =>
              constructor
              · exact fun h => absurd h paysOk_error
              · rintro ⟨-, t', ht, h⟩
                rw [← Option.some.inj ht, htext] at h
                simp at h
          | some message =>
              refine paysOk_respond_toValue.trans ⟨fun h => ⟨fun _ => h.1, t, rfl, Or.inr ?_⟩,
                fun h => ⟨h.1 rfl, herror _⟩⟩
              rw [htext]
              rfl

/-- The outcome of a handler is answered exactly if it can be. -/
lemma paysOk_respondOutcome {isNotification : Bool} {i : Option RpcId} {v : WireValue}
    {outcome : HandlerOutcome R} (herror : ∀ e, writable ⟨i, .error e⟩) :
    PaysOk writable (if isNotification then [] else [v])
        (responsesOf (d.respondOutcome isNotification i outcome)) ↔
      (isNotification = false → RpcId.Equals i v) ∧
        OutcomeAnswerable writable isNotification i outcome := by
  cases outcome with
  | result r =>
      cases isNotification with
      | true => exact ⟨fun _ => ⟨nofun, Or.inl rfl⟩, fun _ => paysOk_none⟩
      | false =>
          refine paysOk_respond_toValue.trans ⟨fun h => ⟨fun _ => h.1, Or.inr h.2⟩, ?_⟩
          rintro ⟨hequal, hwritable⟩
          exact ⟨hequal rfl, hwritable.resolve_left nofun⟩
  | paramError text => exact paysOk_respondError herror
  | error text => exact paysOk_respondError herror

lemma owed_obj (members : List (PyText × WireValue)) :
    (owed (.obj members)).toList = if (rawId members).isNull then [] else [rawId members] := by
  rw [owed]
  split_ifs <;> rfl

/-- **An object** is answered as it is owed exactly if it can be. -/
lemma paysOk_dispatchObject (herror : ∀ i e, writable ⟨i, .error e⟩)
    (members : List (PyText × WireValue)) :
    PaysOk writable (owed (.obj members)).toList (responsesOf (d.dispatchObject s members).2) ↔
      d.Answerable writable s (.obj members) := by
  rw [owed_obj]
  cases hreq : d.lib.validateRequest members with
  | none =>
      -- the raw identifier is echoed into the error
      have hrest : d.Answerable writable s (.obj members) ↔
          ((rawId members).isNull = false → d.Echoed (rawId members)) :=
        ⟨fun h => h.1, fun h => ⟨h, fun req handler h' => by rw [hreq] at h'; cases h'⟩⟩
      rw [hrest, dispatchObject_of_invalid s hreq]
      cases hnull : (rawId members).isNull with
      | true => exact ⟨fun _ => nofun, fun _ => paysOk_none⟩
      | false =>
          refine (paysOk_respond fun i _ => herror i _).trans ⟨fun h _ => h, fun h => h rfl⟩
  | some req =>
      have hid : d.lib.validateId (rawId members) = some req.id :=
        d.lib.validateId_of_validateRequest hreq
      have hechoed : d.Echoed (rawId members) ↔ RpcId.Equals req.id (rawId members) := by
        constructor
        · rintro ⟨i, hi, hequal⟩
          rw [hid] at hi
          rwa [Option.some.inj hi]
        · exact fun hequal => ⟨req.id, hid, hequal⟩
      cases hhandler : d.handlers req.method with
      | none =>
          have hrest : d.Answerable writable s (.obj members) ↔
              ((rawId members).isNull = false → RpcId.Equals req.id (rawId members)) := by
            rw [← hechoed]
            refine ⟨fun h => h.1, fun h => ⟨h, fun req' handler h' hh => ?_⟩⟩
            rw [hreq, Option.some.injEq] at h'
            rw [← h', hhandler] at hh
            cases hh
          rw [hrest, dispatchObject_of_unknown s hreq hhandler]
          cases hnull : (rawId members).isNull with
          | true => exact ⟨fun _ => nofun, fun _ => paysOk_none⟩
          | false =>
              exact paysOk_respond_toValue.trans ⟨fun h _ => h.1, fun h => ⟨h rfl, herror _ _⟩⟩
      | some handler =>
          rw [dispatchObject_of_handled s hreq hhandler]
          refine (paysOk_respondOutcome (herror req.id)).trans ?_
          rw [← hechoed]
          refine and_congr_right fun _ => ⟨fun h req' handler' h' hh => ?_, fun h =>
            h req handler hreq hhandler⟩
          rw [hreq, Option.some.injEq] at h'
          rw [← h', hhandler, Option.some.injEq] at hh
          rw [← h', ← hh]
          exact h

/-- **One request** is answered as it is owed exactly if it can be. -/
lemma paysOk_dispatch (herror : ∀ i e, writable ⟨i, .error e⟩) (v : WireValue) :
    PaysOk writable (owed v).toList (responsesOf (d.dispatch s v).2) ↔
      d.Answerable writable s v := by
  have hother : PaysOk writable [.null] (responsesOf (d.respond .null
      (.error (.invalidRequest "Request must be a JSON object")))) :=
    (@paysOk_respond_toValue S R d writable none _ _).mpr ⟨trivial, herror _ _⟩
  cases v with
  | null => exact ⟨fun _ => trivial, fun _ => hother⟩
  | bool b => exact ⟨fun _ => trivial, fun _ => hother⟩
  | int n => exact ⟨fun _ => trivial, fun _ => hother⟩
  | float x => exact ⟨fun _ => trivial, fun _ => hother⟩
  | str t => exact ⟨fun _ => trivial, fun _ => hother⟩
  | arr items => exact ⟨fun _ => trivial, fun _ => hother⟩
  | obj members => exact paysOk_dispatchObject herror members

/-! ## A batch -/

/-- A dispatched request has a response exactly if one is owed. -/
lemma length_of_dispatch {v : WireValue} {response : Option (JSONRPCResponse R)}
    (h : (d.dispatch s v).2 = .ok response) :
    response.toList.length = (owed v).toList.length := by
  have hrespond : ∀ {id : WireValue} {body : RpcBody R} {r : Option (JSONRPCResponse R)},
      d.respond id body = .ok r → r.toList.length = 1 := by
    intro id body r hr
    rw [respond] at hr
    split at hr
    · rw [← Except.ok.inj hr]
      rfl
    · cases hr
  have hnotified : ∀ {b : Bool} {id : WireValue} {body : RpcBody R}
      {r : Option (JSONRPCResponse R)},
      (if b then .ok none else d.respond id body) = .ok r →
        r.toList.length = if b then 0 else 1 := by
    intro b id body r hr
    cases b with
    | true =>
        rw [← Except.ok.inj hr]
        rfl
    | false => exact hrespond hr
  have herror : ∀ {b : Bool} {i : Option RpcId} {f : String → JSONRPCError}
      {text : Option PyText} {r : Option (JSONRPCResponse R)},
      d.respondError b i f text = .ok r → r.toList.length = if b then 0 else 1 := by
    intro b i f text r hr
    cases text with
    | none => cases hr
    | some t =>
        cases b with
        | true =>
            rw [← Except.ok.inj hr]
            rfl
        | false =>
            rw [respondError, if_neg (by decide)] at hr
            split at hr
            · cases hr
            · exact hrespond hr
  cases v with
  | obj members =>
      have hlen : (owed (.obj members)).toList.length =
          if (rawId members).isNull then 0 else 1 := by
        rw [owed_obj]
        split_ifs <;> rfl
      rw [hlen]
      rw [dispatch] at h
      cases hreq : d.lib.validateRequest members with
      | none =>
          rw [dispatchObject_of_invalid s hreq] at h
          exact hnotified h
      | some req =>
          cases hhandler : d.handlers req.method with
          | none =>
              rw [dispatchObject_of_unknown s hreq hhandler] at h
              exact hnotified h
          | some handler =>
              rw [dispatchObject_of_handled s hreq hhandler] at h
              cases houtcome : (handler s (req.params.getD [])).2 with
              | result r =>
                  rw [houtcome] at h
                  exact hnotified h
              | paramError text =>
                  rw [houtcome] at h
                  exact herror h
              | error text =>
                  rw [houtcome] at h
                  exact herror h
  | null => exact hrespond h
  | bool b => exact hrespond h
  | int n => exact hrespond h
  | float x => exact hrespond h
  | str t => exact hrespond h
  | arr items => exact hrespond h

/-- **A batch** is answered as it is owed exactly if its requests can be. -/
lemma paysOk_dispatchBatch (herror : ∀ i e, writable ⟨i, .error e⟩) (s : S) (es : List WireValue) :
    PaysOk writable (es.filterMap owed) (d.dispatchBatch s es).2 ↔
      d.BatchAnswerable writable s es := by
  induction es generalizing s with
  | nil => exact ⟨fun _ => trivial, fun _ =>
      ⟨[], rfl, List.Forall₂.nil, fun _ h => absurd h List.not_mem_nil⟩⟩
  | cons e es ih =>
      have howed : (e :: es).filterMap owed = (owed e).toList ++ es.filterMap owed := by
        rw [List.filterMap_cons]
        cases owed e <;> rfl
      rw [howed, BatchAnswerable, ← paysOk_dispatch herror, ← ih, dispatchBatch]
      cases hfirst : (d.dispatch s e).2 with
      | error fault =>
          rw [show d.dispatch s e = ((d.dispatch s e).1, .error fault) from Prod.ext rfl hfirst]
          exact ⟨fun h => absurd h paysOk_error, fun h => absurd h.1 paysOk_error⟩
      | ok response =>
          have hlen := length_of_dispatch hfirst
          rw [show d.dispatch s e = ((d.dispatch s e).1, .ok response) from Prod.ext rfl hfirst]
          dsimp only
          cases hrest : (d.dispatchBatch (d.dispatch s e).1 es).2 with
          | error fault =>
              rw [show d.dispatchBatch (d.dispatch s e).1 es =
                (_, .error fault) from Prod.ext rfl hrest]
              exact ⟨fun h => absurd h paysOk_error, fun h => absurd h.2 paysOk_error⟩
          | ok responses =>
              rw [show d.dispatchBatch (d.dispatch s e).1 es =
                (_, .ok responses) from Prod.ext rfl hrest]
              constructor
              · rintro ⟨all, heq, hpays, hall⟩
                obtain rfl := Except.ok.inj heq
                refine ⟨⟨_, rfl, ?_, fun r hr => hall r (List.mem_append_left _ hr)⟩,
                  ⟨_, rfl, ?_, fun r hr => hall r (List.mem_append_right _ hr)⟩⟩
                · have htake := List.forall₂_take (owed e).toList.length hpays
                  rwa [List.take_left, ← hlen, List.take_left] at htake
                · have hdrop := List.forall₂_drop (owed e).toList.length hpays
                  rwa [List.drop_left, ← hlen, List.drop_left] at hdrop
              · rintro ⟨⟨first, hfirst', hpays, hw⟩, ⟨later, hlater, hpays', hw'⟩⟩
                obtain rfl := Except.ok.inj hfirst'
                obtain rfl := Except.ok.inj hlater
                refine ⟨_, rfl, List.rel_append hpays hpays', fun r hr => ?_⟩
                exact (List.mem_append.mp hr).elim (hw r) (hw' r)

/-! ## One message -/

/-- A header within the ceiling is no text: its first byte is zero or one. -/
lemma Frame.not_isText {f : Frame} (h : f.WellFramed) : f.isText = false := by
  obtain ⟨⟨a, b, c, e⟩, payload⟩ := f
  have ha : (a : ℕ) ≤ 1 := by
    have hlen : ((a * 256 + b) * 256 + c) * 256 + (e : ℕ) ≤ 16 * 1024 * 1024 := h
    omega
  have hcases : a = 0 ∨ a = 1 := by omega
  rcases hcases with rfl | rfl
  · simp [Frame.isText, List.isPrefixOf]
  · simp [Frame.isText, List.isPrefixOf]

/-- What the loop makes of a message within the ceiling. -/
lemma handleFrame_of_wellFramed {f : Frame} (h : f.WellFramed) :
    d.handleFrame s f = match f.payload with
      | .error text => (s, d.writeResponse ⟨none, .error (.parseError text)⟩)
      | .ok (.arr []) =>
        (s, d.writeResponse ⟨none, .error (.invalidRequest "Batch cannot be empty")⟩)
      | .ok (.arr (e :: es)) =>
        ((d.dispatchBatch s (e :: es)).1, (d.dispatchBatch s (e :: es)).2.bind d.writeBatch)
      | .ok v => ((d.dispatch s v).1, (d.dispatch s v).2.bind fun
        | none => .ok []
        | some response => d.writeResponse response) := by
  rw [handleFrame, Frame.not_isText h, if_neg (by decide)]
  exact if_neg (not_lt.mpr h)

/-- Responses are written that pay what is owed. -/
def Written (ids : List WireValue) (result : Except Closed (List (JSONRPCResponse R))) : Prop :=
  ∃ responses, result = .ok responses ∧ Pays responses ids

lemma writeResponse_eq_ok_iff {r : JSONRPCResponse R} {sent : List (JSONRPCResponse R)} :
    d.writeResponse r = .ok sent ↔ d.Writable r ∧ sent = [r] := by
  have hok : (Except.ok [r] : Except Closed (List (JSONRPCResponse R))) = .ok sent ↔ sent = [r] :=
    ⟨fun h => (Except.ok.inj h).symm, fun h => by rw [h]⟩
  rw [writeResponse, Writable]
  cases d.lib.dumpJson r with
  | none => simp [hok]
  | some fault =>
      cases fault with
      | other => simp
      | unicode =>
          cases d.lib.dumps r with
          | true => simp [hok]
          | false => simp

lemma writeBatch_eq_ok_iff {responses sent : List (JSONRPCResponse R)} :
    d.writeBatch responses = .ok sent ↔ (∀ r ∈ responses, d.BatchWritable r) ∧ sent = responses := by
  rw [writeBatch]
  by_cases hnil : responses = []
  · rw [if_pos hnil, hnil]
    exact ⟨fun h => ⟨nofun, (Except.ok.inj h).symm⟩, fun h => by rw [h.2]⟩
  · rw [if_neg hnil]
    by_cases hall : responses.all d.lib.dumps = true
    · rw [if_pos hall]
      exact ⟨fun h => ⟨List.all_eq_true.mp hall, (Except.ok.inj h).symm⟩, fun h => by rw [h.2]⟩
    · rw [if_neg hall]
      exact ⟨nofun, fun h => absurd (List.all_eq_true.mpr h.1) hall⟩

/-- A single request is written as it is owed exactly if it is answered so and can be written. -/
lemma written_single {ids : List WireValue}
    {result : Except Closed (Option (JSONRPCResponse R))} :
    Written ids (result.bind fun
      | none => .ok []
      | some response => d.writeResponse response) ↔
      PaysOk d.Writable ids (responsesOf result) := by
  constructor
  · rintro ⟨sent, hsent, hpays⟩
    cases result with
    | error fault => cases hsent
    | ok response =>
        cases response with
        | none =>
            obtain rfl := Except.ok.inj hsent
            exact ⟨[], rfl, hpays, fun _ h => absurd h List.not_mem_nil⟩
        | some r =>
            obtain ⟨hwritable, rfl⟩ := writeResponse_eq_ok_iff.mp hsent
            refine ⟨[r], rfl, hpays, fun r' hr' => ?_⟩
            rw [List.mem_singleton.mp hr']
            exact hwritable
  · rintro ⟨responses, hresponses, hpays, hwritable⟩
    cases result with
    | error fault => cases hresponses
    | ok response =>
        obtain rfl := Except.ok.inj hresponses
        cases response with
        | none => exact ⟨[], rfl, hpays⟩
        | some r =>
            exact ⟨[r], writeResponse_eq_ok_iff.mpr
              ⟨hwritable r (List.mem_singleton_self r), rfl⟩, hpays⟩

lemma written_batch {ids : List WireValue}
    {result : Except Closed (List (JSONRPCResponse R))} :
    Written ids (result.bind d.writeBatch) ↔ PaysOk d.BatchWritable ids result := by
  constructor
  · rintro ⟨sent, hsent, hpays⟩
    cases result with
    | error fault => cases hsent
    | ok responses =>
        obtain ⟨hwritable, rfl⟩ := writeBatch_eq_ok_iff.mp hsent
        exact ⟨_, rfl, hpays, hwritable⟩
  · rintro ⟨responses, rfl, hpays, hwritable⟩
    exact ⟨responses, writeBatch_eq_ok_iff.mpr ⟨hwritable, rfl⟩, hpays⟩

lemma writable_error (i : Option RpcId) (e : JSONRPCError) : d.Writable ⟨i, .error e⟩ :=
  Or.inl (d.lib.dumpJson_error i e)

/-- **One message** is answered as it is owed exactly if its requests can be. -/
lemma written_handleFrame {f : Frame} (h : f.WellFramed) :
    Written f.owed (d.handleFrame s f).2 ↔ d.FrameAnswerable s f := by
  have herror : ∀ e : JSONRPCError,
      Written [.null] (d.writeResponse (⟨none, .error e⟩ : JSONRPCResponse R)) := fun e =>
    ⟨_, writeResponse_eq_ok_iff.mpr ⟨writable_error none e, rfl⟩,
      List.Forall₂.cons trivial List.Forall₂.nil⟩
  have hsingle : ∀ v : WireValue, Written (owed v).toList ((d.dispatch s v).2.bind fun
      | none => .ok []
      | some response => d.writeResponse response) ↔ d.Answerable d.Writable s v := fun v =>
    written_single.trans (paysOk_dispatch writable_error v)
  rw [handleFrame_of_wellFramed h, Frame.owed, FrameAnswerable]
  obtain ⟨header, payload⟩ := f
  cases payload with
  | error text => exact ⟨fun _ => trivial, fun _ => herror _⟩
  | ok v =>
      cases v with
      | arr es =>
          cases es with
          | nil => exact ⟨fun _ => trivial, fun _ => herror _⟩
          | cons e es =>
              exact written_batch.trans (paysOk_dispatchBatch d.lib.dumps_error s (e :: es))
      | null => exact hsingle .null
      | bool b => exact hsingle (.bool b)
      | int n => exact hsingle (.int n)
      | float x => exact hsingle (.float x)
      | str t => exact hsingle (.str t)
      | obj members => exact hsingle (.obj members)

/-! ## A connection -/

lemma serve_cons_of_ok {f : Frame} {fs : List Frame} {sent : List (JSONRPCResponse R)}
    (h : (d.handleFrame s f).2 = .ok sent) :
    d.serve s (f :: fs) = (sent :: (d.serve (d.handleFrame s f).1 fs).1,
      (d.serve (d.handleFrame s f).1 fs).2) := by
  rw [serve, show d.handleFrame s f = ((d.handleFrame s f).1, .ok sent) from Prod.ext rfl h]

lemma serve_cons_of_error {f : Frame} {fs : List Frame} {fault : Closed}
    (h : (d.handleFrame s f).2 = .error fault) : d.serve s (f :: fs) = ([], false) := by
  rw [serve, show d.handleFrame s f = ((d.handleFrame s f).1, .error fault) from Prod.ext rfl h]

/-- **Every request is answered once.** On every sequence of well-framed messages, the connection
stays open and every message gets exactly the responses that are owed to it, in order, if and only
if every request can be answered in the state that it finds. -/
theorem answeredOnce_iff (d : RpcDispatcher S R) (s : S) {frames : List Frame}
    (hframes : ∀ f ∈ frames, f.WellFramed) :
    AnsweredOnce frames (d.serve s frames) ↔ d.AllAnswerable s frames := by
  induction frames generalizing s with
  | nil => exact ⟨fun _ => trivial, fun _ => ⟨rfl, List.Forall₂.nil⟩⟩
  | cons f fs ih =>
      obtain ⟨hf, hfs⟩ := List.forall_mem_cons.mp hframes
      rw [AllAnswerable, ← written_handleFrame hf, ← ih (d.handleFrame s f).1 hfs]
      cases hresult : (d.handleFrame s f).2 with
      | error fault =>
          rw [serve_cons_of_error hresult]
          exact ⟨fun h => (nomatch h.1), fun ⟨⟨_, h, _⟩, _⟩ => nomatch h⟩
      | ok sent =>
          rw [serve_cons_of_ok hresult]
          constructor
          · rintro ⟨hopen, hall⟩
            obtain ⟨hpays, hrest⟩ := List.forall₂_cons.mp hall
            exact ⟨⟨sent, rfl, hpays⟩, hopen, hrest⟩
          · rintro ⟨⟨sent', hsent, hpays⟩, hopen, hrest⟩
            obtain rfl := Except.ok.inj hsent
            exact ⟨hopen, List.Forall₂.cons hpays hrest⟩

/-- A dispatcher whose only handler returns at once. -/
def pingOnly : RpcDispatcher Unit Unit where
  lib := WireLibrary.sample
  handlers method := if method = "ping" then some fun s _ => (s, .result ()) else none

lemma neZero_byte : NeZero 256 := inferInstance

attribute [local instance] neZero_byte in
/-- A message with a request for `ping`. -/
def pingFrame (id : List (PyText × WireValue)) : Frame :=
  ⟨(0, 0, 0, 40),
    .ok (.obj ((PyText.ofString "method", .str (PyText.ofString "ping")) :: id))⟩

/-- A request with the identifier seven, and then a notification. -/
theorem answeredOnce_iff_ping :
    let frames := [pingFrame [(PyText.ofString "id", .int 7)], pingFrame []]
    AnsweredOnce frames (pingOnly.serve () frames) := by
  intro frames
  have hping : ∀ s id req handler, pingOnly.handlers req.method = some handler →
      OutcomeAnswerable pingOnly.Writable (rawId id).isNull (JSONRPCRequest.id req)
        (handler s (req.params.getD [])).2 := by
    intro s id req handler hhandler
    change (if req.method = "ping" then _ else none) = some handler at hhandler
    split_ifs at hhandler
    obtain rfl := Option.some.inj hhandler
    exact Or.inr (Or.inl rfl)
  refine (@answeredOnce_iff Unit Unit pingOnly () frames (by decide)).mpr
    ⟨⟨fun _ => ⟨some (.int 7), rfl, rfl⟩, fun req handler _ h => hping _ _ req handler h⟩,
      ⟨fun h => ?_, fun req handler _ h => hping _ _ req handler h⟩, trivial⟩
  exact absurd h (by decide)

/-- **An identifier that is no integer and no text ends the connection.** The request after it is
not answered. -/
theorem not_answeredOnce :
    ¬ ∀ (d : RpcDispatcher Unit Unit) (s : Unit) (frames : List Frame),
      (∀ f ∈ frames, f.WellFramed) → AnsweredOnce frames (d.serve s frames) := by
  intro h
  have hopen := (h pingOnly () [pingFrame [(PyText.ofString "id", .obj [])],
    pingFrame [(PyText.ofString "id", .int 7)]] (by decide)).1
  exact absurd hopen (by decide)

end RpcDispatcher

end AtlasMemory
