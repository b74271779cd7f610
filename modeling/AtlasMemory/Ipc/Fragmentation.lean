import AtlasMemory.Ipc.UdsClient

/-!
# Replies in pieces

A socket gives out a frame in pieces of any size, as the results of `recv`.  The client collects the
pieces of the body, but takes the length from a single result: where that has less than its four
bytes the attempt fails, `reply_in_pieces_iff`.  Over a pooled connection the request is then sent
once more, and over a new one the call fails.
-/

namespace AtlasMemory

namespace UdsClient

/-- The results of `recv` from a system call on. -/
def Receives (env : Environment) : ℕ → List (List UInt8) → Prop
  | _, [] => True
  | c, p :: pieces => env.recv c = .ok p ∧ Receives env (c + 1) pieces

/-- A way to give out a frame: no result is empty before its end, and none has more bytes than were
asked for, four for the length and 4096 after it. -/
structure Splits (frame : List UInt8) (pieces : List (List UInt8)) : Prop where
  flatten_eq : pieces.flatten = frame
  nonempty : ∀ p ∈ pieces, p ≠ []
  first_le : ∀ p, pieces.head? = some p → p.length ≤ 4
  rest_le : ∀ p ∈ pieces.tail, p.length ≤ 4096

/-- The length of the frame arrives in one piece. -/
def HeaderWhole (pieces : List (List UInt8)) : Prop := ∃ p, pieces.head? = some p ∧ p.length = 4

variable {rt : Runtime} {env : Environment}

lemma length_packLength {n : ℕ} {header : List UInt8} (h : RpcRequest.packLength n = some header) :
    header.length = 4 := by
  unfold RpcRequest.packLength at h
  split_ifs at h
  rw [← Option.some.inj h]
  rfl

lemma unpackLength_packLength {n : ℕ} {header : List UInt8}
    (h : RpcRequest.packLength n = some header) : unpackLength header = n := by
  unfold RpcRequest.packLength at h
  split_ifs at h with hn
  rw [← Option.some.inj h]
  simp only [unpackLength, List.foldl_cons, List.foldl_nil, UInt8.toNat_ofNat']
  omega

/-- A reply that is no result is an error of the procedure or of the decoding. -/
lemma error_of_replyResult {data : List UInt8} {e : ClientError}
    (h : replyResult rt env data = .error e) :
    (∃ detail, e = .transport .rpcError detail) ∨ ∃ text, e = .other text := by
  unfold replyResult at h
  split at h
  · split at h
    · split_ifs at h
      · split at h
        · split_ifs at h
          · exact Or.inr ⟨_, (Except.error.inj h).symm⟩
          · exact Or.inl ⟨_, (Except.error.inj h).symm⟩
        · exact Or.inl ⟨_, (Except.error.inj h).symm⟩
    · exact absurd h (by simp)
  · exact Or.inr ⟨_, (Except.error.inj h).symm⟩
  · exact Or.inr ⟨_, (Except.error.inj h).symm⟩

lemma recv_of_le {n : ℕ} {w : World} {p : List UInt8} (h : env.recv w.call = .ok p)
    (hn : p.length ≤ n) : recv env n w = (.ok p, w.next) := by
  simp only [recv, h, List.take_of_length_le hn]

lemma length_le_flatten {pieces : List (List UInt8)} (h : ∀ p ∈ pieces, p ≠ []) :
    pieces.length ≤ pieces.flatten.length := by
  induction pieces with
  | nil => exact le_rfl
  | cons p pieces ih =>
      have hp : 0 < p.length := List.length_pos_iff.mpr (h p List.mem_cons_self)
      have hrest := ih fun q hq => h q (List.mem_cons_of_mem _ hq)
      simp only [List.length_cons, List.flatten_cons, List.length_append]
      omega

lemma recvPayload_pieces {respLen fuel : ℕ} {pieces : List (List UInt8)} {received : List UInt8}
    {w : World} (hlen : received.length + pieces.flatten.length = respLen)
    (hfuel : pieces.length ≤ fuel) (hne : ∀ p ∈ pieces, p ≠ [])
    (hle : ∀ p ∈ pieces, p.length ≤ 4096) (hrecv : Receives env w.call pieces) :
    (recvPayload env respLen fuel received w).1 = .ok (received ++ pieces.flatten) := by
  induction pieces generalizing received w fuel with
  | nil =>
      rw [List.flatten_nil, List.append_nil]
      rw [List.flatten_nil, List.length_nil, Nat.add_zero] at hlen
      cases fuel with
      | zero => rfl
      | succ n => rw [recvPayload, if_neg (by omega)]
  | cons p pieces ih =>
      obtain ⟨n, rfl⟩ : ∃ n, fuel = n + 1 := ⟨fuel - 1, by simp only [List.length_cons] at hfuel; omega⟩
      obtain ⟨b, t, rfl⟩ := List.exists_cons_of_ne_nil (hne p List.mem_cons_self)
      simp only [List.flatten_cons, List.length_append, List.length_cons] at hlen hfuel
      have hp : (b :: t).length ≤ min 4096 (respLen - received.length) := by
        have hbound := hle (b :: t) List.mem_cons_self
        simp only [List.length_cons] at hbound ⊢
        omega
      have hlen' : (received ++ b :: t).length + pieces.flatten.length = respLen := by
        simp only [List.length_append, List.length_cons]
        omega
      have hnext := @ih n (received ++ b :: t) w.next hlen' (by omega)
        (fun q hq => hne q (List.mem_cons_of_mem _ hq))
        (fun q hq => hle q (List.mem_cons_of_mem _ hq)) hrecv.2
      rw [recvPayload, if_pos (by omega), recv_of_le hrecv.1 hp]
      show (recvPayload env respLen n (received ++ b :: t) w.next).1 = _
      rw [hnext, List.flatten_cons, List.append_assoc]

/-- What the client makes of a reply that arrives in pieces. -/
lemma readReply_pieces {body header : List UInt8} {pieces : List (List UInt8)} {w : World}
    (hheader : RpcRequest.packLength body.length = some header)
    (hsplit : Splits (header ++ body) pieces) (hrecv : Receives env w.call pieces) :
    (HeaderWhole pieces → (readReply rt env w).1 = replyResult rt env body) ∧
      (¬HeaderWhole pieces →
        ∃ detail, (readReply rt env w).1 = .error (.transport .shortRead detail)) := by
  have hfour := length_packLength hheader
  obtain ⟨p, pieces, rfl⟩ : ∃ p rest, pieces = p :: rest := by
    apply List.exists_cons_of_ne_nil
    rintro rfl
    have hflat := congrArg List.length hsplit.flatten_eq
    simp only [List.flatten_nil, List.length_nil, List.length_append, hfour] at hflat
    omega
  have hp := hsplit.first_le p rfl
  rw [readReply, recv_of_le hrecv.1 hp]
  simp only
  constructor
  · rintro ⟨q, hq, hlen⟩
    obtain rfl : p = q := Option.some.inj hq
    obtain ⟨rfl, hbody⟩ : p = header ∧ pieces.flatten = body :=
      List.append_inj hsplit.flatten_eq (hlen.trans hfour.symm)
    have hne : ∀ q ∈ pieces, q ≠ [] := fun q hq => hsplit.nonempty q (List.mem_cons_of_mem _ hq)
    have hpayload : (recvPayload env body.length body.length [] w.next).1 = .ok ([] ++ pieces.flatten) :=
      recvPayload_pieces (by rw [hbody, List.length_nil, Nat.zero_add])
        (hbody ▸ length_le_flatten hne) hne hsplit.rest_le hrecv.2
    rw [if_neg (by omega), unpackLength_packLength hheader]
    rcases hloop : recvPayload env body.length body.length [] w.next with ⟨result, w'⟩
    rw [hloop, hbody, List.nil_append] at hpayload
    simp only at hpayload
    subst hpayload
    simp only [lt_irrefl, if_false]
  · intro hnot
    have hshort : p.length < 4 := by
      have hne : p.length ≠ 4 := fun h => hnot ⟨p, rfl, h⟩
      omega
    rw [if_pos hshort]
    exact ⟨_, rfl⟩

section Call

variable {socketPath : String} {req : RpcRequest} {w w' : World} {frame header body : List UInt8}
  {pieces : List (List UInt8)} {s : ℕ} {fromPool : Bool}

lemma sendUdsRequestSync_acquired (hpath : env.pathExists w.call = true)
    (hframe : req.frame = some frame)
    (hacquire : SyncUDSConnectionPool.acquire env w.next = (.ok (s, fromPool), w')) :
    sendUdsRequestSync rt env socketPath req w =
      match executeOverSocket rt env req frame s w' with
      | (.ok result, w) => (.ok result, SyncUDSConnectionPool.release env s w)
      | (.error e, w) =>
        if staleInPool fromPool e then lastAttempt rt env req frame w
        else (.error (asTransportError e), w) := by
  simp only [sendUdsRequestSync, hpath, if_true, hframe, hacquire]
  try rfl

lemma executeOverSocket_pieces (hsend : (env.sendall w'.call).fault = none)
    (hheader : RpcRequest.packLength body.length = some header)
    (hsplit : Splits (header ++ body) pieces) (hrecv : Receives env (w'.call + 1) pieces) :
    (HeaderWhole pieces → (executeOverSocket rt env req frame s w').1 = replyResult rt env body) ∧
      (¬HeaderWhole pieces → ∃ detail, (executeOverSocket rt env req frame s w').1 =
        .error (.transport .shortRead detail)) := by
  obtain ⟨sent, hsent, hcall⟩ : ∃ sent, sendall env req frame s w' = (none, sent) ∧
      sent.call = w'.call + 1 :=
    ⟨(sendall env req frame s w').2, Prod.ext (by simp only [sendall, hsend, Option.map_none]) rfl,
      rfl⟩
  rw [executeOverSocket, hsent]
  exact readReply_pieces hheader hsplit (hcall ▸ hrecv)

/-- Over a new connection a length in parts is the end of the call. -/
lemma sendUdsRequestSync_of_short (hpath : env.pathExists w.call = true)
    (hframe : req.frame = some frame)
    (hacquire : SyncUDSConnectionPool.acquire env w.next = (.ok (s, false), w'))
    (hsend : (env.sendall w'.call).fault = none)
    (hheader : RpcRequest.packLength body.length = some header)
    (hsplit : Splits (header ++ body) pieces) (hrecv : Receives env (w'.call + 1) pieces)
    (hshort : ¬HeaderWhole pieces) :
    ∃ detail, (sendUdsRequestSync rt env socketPath req w).1 =
      .error (.transport .shortRead detail) := by
  obtain ⟨-, hpart⟩ := @executeOverSocket_pieces rt env req w' frame header body pieces s hsend
    hheader hsplit hrecv
  obtain ⟨detail, hdetail⟩ := hpart hshort
  rw [sendUdsRequestSync_acquired hpath hframe hacquire]
  rcases hrun : executeOverSocket rt env req frame s w' with ⟨result, w''⟩
  rw [hrun] at hdetail
  simp only at hdetail
  subst hdetail
  exact ⟨detail, rfl⟩

/-- A length in one piece makes the call give the decoded reply. -/
lemma sendUdsRequestSync_of_whole (hpath : env.pathExists w.call = true)
    (hframe : req.frame = some frame)
    (hacquire : SyncUDSConnectionPool.acquire env w.next = (.ok (s, fromPool), w'))
    (hsend : (env.sendall w'.call).fault = none)
    (hheader : RpcRequest.packLength body.length = some header)
    (hsplit : Splits (header ++ body) pieces) (hrecv : Receives env (w'.call + 1) pieces)
    (hwhole : HeaderWhole pieces) :
    (sendUdsRequestSync rt env socketPath req w).1 =
      (replyResult rt env body).mapError asTransportError := by
  obtain ⟨hattempt, -⟩ := @executeOverSocket_pieces rt env req w' frame header body pieces s hsend
    hheader hsplit hrecv
  have hresult := hattempt hwhole
  rw [sendUdsRequestSync_acquired hpath hframe hacquire]
  rcases hrun : executeOverSocket rt env req frame s w' with ⟨result, w''⟩
  rw [hrun] at hresult
  simp only at hresult
  subst hresult
  cases hreply : replyResult rt env body with
  | ok value => rfl
  | error e =>
      have hstale : staleInPool fromPool e = false := by
        rcases error_of_replyResult hreply with ⟨detail, rfl⟩ | ⟨text, rfl⟩
        · simp [staleInPool]
        · rfl
      simp only [hstale, Bool.false_eq_true, if_false]
      rfl

end Call

/-- Over a pooled or a new connection an attempt gives the decoded reply exactly when the length
arrives in one piece.  Then the call gives it too; over a new connection it fails otherwise. -/
theorem reply_in_pieces_iff (rt : Runtime) (env : Environment) (socketPath : String)
    (req : RpcRequest) (w : World) {frame header body : List UInt8} {pieces : List (List UInt8)}
    {s : ℕ} {fromPool : Bool} {w' : World} (hpath : env.pathExists w.call = true)
    (hframe : req.frame = some frame)
    (hacquire : SyncUDSConnectionPool.acquire env w.next = (.ok (s, fromPool), w'))
    (hsend : (env.sendall w'.call).fault = none)
    (hheader : RpcRequest.packLength body.length = some header)
    (hsplit : Splits (header ++ body) pieces) (hrecv : Receives env (w'.call + 1) pieces) :
    ((executeOverSocket rt env req frame s w').1 = replyResult rt env body ↔ HeaderWhole pieces) ∧
      (HeaderWhole pieces → (sendUdsRequestSync rt env socketPath req w).1 =
        (replyResult rt env body).mapError asTransportError) ∧
      (fromPool = false → ((sendUdsRequestSync rt env socketPath req w).1 =
        (replyResult rt env body).mapError asTransportError ↔ HeaderWhole pieces)) := by
  obtain ⟨hwhole, hpart⟩ := @executeOverSocket_pieces rt env req w' frame header body pieces s hsend
    hheader hsplit hrecv
  have hgood := @sendUdsRequestSync_of_whole rt env socketPath req w w' frame header body pieces s
    fromPool hpath hframe hacquire hsend hheader hsplit hrecv
  refine ⟨⟨fun heq => ?_, hwhole⟩, hgood, fun hnew => ⟨fun heq => ?_, hgood⟩⟩
  · by_contra h
    obtain ⟨detail, hresult⟩ := hpart h
    rcases error_of_replyResult (heq.symm.trans hresult) with ⟨detail', he⟩ | ⟨text, he⟩
    · exact absurd he (by simp)
    · exact absurd he (by simp)
  · by_contra h
    subst hnew
    obtain ⟨detail, hresult⟩ := @sendUdsRequestSync_of_short rt env socketPath req w w' frame header
      body pieces s hpath hframe hacquire hsend hheader hsplit hrecv h
    rw [hresult] at heq
    cases hreply : replyResult rt env body with
    | ok value =>
        rw [hreply] at heq
        exact absurd heq (by simp [Except.mapError])
    | error e =>
        rw [hreply] at heq
        rcases error_of_replyResult hreply with ⟨detail', rfl⟩ | ⟨text, rfl⟩
        · exact absurd heq (by simp [Except.mapError, asTransportError])
        · exact absurd heq (by simp [Except.mapError, asTransportError])

/-! ## A length in two pieces -/

def ping : RpcRequest := ⟨"ping", []⟩

/-- An empty object as the reply, after its length in the given pieces. -/
def givesOut (pieces : ℕ → List UInt8) : Environment where
  pathExists _ := true
  monotonic _ := 0
  quiet _ := true
  setTimeout _ := true
  connect n := .ok n
  sendall _ := ⟨none, 0, 0⟩
  recv n := .ok (pieces n)
  decodeError _ := ""
  pidAlive _ := true
  spawnSkipped _ := false
  lockFault _ := none
  socketChanged _ := false
  spawn _ := true
  polls _ := 0

def halves : Environment :=
  givesOut fun n => if n = 4 then [0, 0] else if n = 5 then [0, 2] else [123, 125]

def inOne : Environment := givesOut fun n => if n = 4 then [0, 0, 0, 2] else [123, 125]

def isEmptyObject : Option Json → Bool
  | some (.obj []) => true
  | _ => false

lemma replyResult_emptyObject (rt : Runtime) (env : Environment) :
    replyResult rt env [123, 125] = .ok .null := by
  have hdecode : isEmptyObject (decode [123, 125]) = true := by decide +kernel
  rw [replyResult]
  unfold isEmptyObject at hdecode
  split at hdecode
  next heq =>
    rw [heq]
    rfl
  next => exact absurd hdecode (by simp)

/-- The length of a well-formed reply comes in two halves, and the call fails. -/
theorem split_header_fails :
    Splits ([0, 0, 0, 2] ++ [123, 125]) [[0, 0], [0, 2], [123, 125]] ∧
      Receives halves 4 [[0, 0], [0, 2], [123, 125]] ∧
      (replyResult .sample halves [123, 125] = .ok .null ∧
        (sendUdsRequestSync .sample halves "s" ping ⟨0, [], []⟩).1 ≠ .ok .null) := by
  have hsplit : Splits ([0, 0, 0, 2] ++ [123, 125]) [[0, 0], [0, 2], [123, 125]] :=
    ⟨rfl, by decide, by simp, by decide⟩
  have hrecv : Receives halves 4 [[0, 0], [0, 2], [123, 125]] := ⟨rfl, rfl, rfl, trivial⟩
  have hshort : ¬HeaderWhole [[0, 0], [0, 2], [123, 125]] := by
    rintro ⟨p, hp, hlen⟩
    rw [← Option.some.inj hp] at hlen
    exact absurd hlen (by decide)
  obtain ⟨frame, hframe⟩ := Option.isSome_iff_exists.mp
    (show ping.frame.isSome = true by decide +kernel)
  obtain ⟨detail, hcall⟩ := @sendUdsRequestSync_of_short .sample halves "s" ping ⟨0, [], []⟩ _ frame
    _ [123, 125] _ 2 rfl hframe rfl rfl rfl hsplit hrecv hshort
  refine ⟨hsplit, hrecv, replyResult_emptyObject _ _, ?_⟩
  rw [hcall]
  simp

/-- The same reply with its length in one piece. -/
theorem reply_in_pieces_whole :
    ∃ s w', SyncUDSConnectionPool.acquire inOne ⟨1, [], []⟩ = (.ok (s, false), w') ∧
      (sendUdsRequestSync .sample inOne "s" ping ⟨0, [], []⟩).1 =
        (replyResult .sample inOne [123, 125]).mapError asTransportError := by
  obtain ⟨frame, hframe⟩ := Option.isSome_iff_exists.mp
    (show ping.frame.isSome = true by decide +kernel)
  have hsplit : Splits ([0, 0, 0, 2] ++ [123, 125]) [[0, 0, 0, 2], [123, 125]] :=
    ⟨rfl, by decide, by simp, by decide⟩
  exact ⟨2, _, rfl, (reply_in_pieces_iff .sample inOne "s" ping ⟨0, [], []⟩ rfl hframe rfl rfl
    (by decide) hsplit ⟨rfl, rfl, trivial⟩).2.1 ⟨_, rfl, rfl⟩⟩

end UdsClient

end AtlasMemory
