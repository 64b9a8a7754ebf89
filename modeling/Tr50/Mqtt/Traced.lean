import Tr50.Machinery.Owned
import Tr50.Mqtt.Packet

/-!
# Mqtt/Traced — what a receive call asks of the socket and of the allocator

`mqttRecv` says what a call of `mqtt_recv` comes back with.  `mqttRecvTraced` is the same call
(`mqttRecvTraced_result`) with what it does on its way: the blocks it is granted and frees, and the
timeout of each `_tcp_recv`.

Where the header loop can be is a question about the input alone (`HeaderReached`): so many reads
have been answered, so much of the stream has been taken, and every check on the way had time left.
The loop gets to each of these places (`HeaderReached.traced`) and ends in one of them
(`exists_headerEnd`), and the rest of the call is read off there.
-/

namespace Tr50

open Machinery

/-! ## The annotated call -/

/-- What a call does besides looking at its bytes.  A block goes by its number among those the call
has been granted. -/
inductive RecvEvent
  | alloc (block : ℕ)
  | free (block : ℕ)
  /-- `_tcp_recv`, called with this timeout. -/
  | recv (timeout : ℤ)
deriving DecidableEq, Repr

/-- A `realloc` that is granted moves the block.  One that is refused leaves the old block where it
is, and `buffer` is overwritten with the null pointer. -/
def RecvState.resizeEvents (env : RecvEnv) (st : RecvState) (readLen : ℕ) : List RecvEvent :=
  if (readLen : ℤ) > st.buffer.length - st.curLen ∧ env.malloc st.allocs then
    [.free st.allocs, .alloc (st.allocs + 1)]
  else []

/-- One round of the fixed-header loop, up to the call of `_tcp_recv`. -/
def mqttRecvEnterTraced (env : RecvEnv) (st : RecvState) (readLen : ℕ) (script : List TcpRecv) :
    Except RecvReturn RecvState × List RecvEvent :=
  let waitTime := st.startingTime + env.timeout - env.clock st.readings
  if waitTime < 0 then (.error (st.tick.fail errTr50Timeout script), [.free st.allocs])
  else
    match st.tick.resize env readLen with
    | none => (.error (st.tick.fail errTr50Malloc script), [])
    | some st' => (.ok st', st.resizeEvents env readLen ++ [.recv (toInt32 waitTime)])

/-- A loop and what it has done. -/
structure LoopTrace where
  loop : RecvLoop
  events : List RecvEvent

/-- Something has been done before. -/
def LoopTrace.after (events : List RecvEvent) (l : LoopTrace) : LoopTrace :=
  ⟨l.loop, events ++ l.events⟩

/-- Reading the fixed header. -/
def mqttRecvHeaderTraced (env : RecvEnv) : List TcpRecv → RecvState → ℕ → LoopTrace
  | [], st, readLen =>
      match mqttRecvEnterTraced env st readLen [] with
      | (.error r, events) => ⟨.exit (.returned r), events⟩
      | (.ok _, events) => ⟨.exit .waiting, events⟩
  | ev :: script, st, readLen =>
      match mqttRecvEnterTraced env st readLen (ev :: script) with
      | (.error r, events) => ⟨.exit (.returned r), events⟩
      | (.ok st, events) =>
        match ev with
        | .failed e _ =>
          let ret := if st.curLen > 0 ∧ e = errTr50Timeout then errTr50Timeout else e
          ⟨.exit (.returned (st.fail ret script)), events ++ [.free st.allocs]⟩
        | .piece n =>
          if st.stream = [] then ⟨.exit .waiting, events⟩
          else
            let st' := if st.curLen = 0 then
              { st.tick with startingTime := env.clock st.readings } else st
            match st'.accept readLen n with
            | none => ⟨.exit .fault, events⟩
            | some st =>
              if st.curLen > 1 then
                match st.lastByte with
                | none => ⟨.exit .fault, events⟩
                | some d =>
                  if d &&& 128 = 0 then ⟨.done st script, events⟩
                  else (mqttRecvHeaderTraced env script st 1).after events
              else (mqttRecvHeaderTraced env script st 1).after events

/-- Reading the remaining variable header and payload: every read gets the same timeout. -/
def mqttRecvBodyTraced (waitTime : ℤ) : List TcpRecv → RecvState → ℕ → LoopTrace
  | script, st, 0 => ⟨.done st script, []⟩
  | [], _, _ + 1 => ⟨.exit .waiting, [.recv (toInt32 waitTime)]⟩
  | .failed e _ :: script, st, _ + 1 =>
      ⟨.exit (.returned (st.fail e script)), [.recv (toInt32 waitTime), .free st.allocs]⟩
  | .piece n :: script, st, readLen + 1 =>
      if st.stream = [] then ⟨.exit .waiting, [.recv (toInt32 waitTime)]⟩
      else
        match st.accept (readLen + 1) n with
        | none => ⟨.exit .fault, [.recv (toInt32 waitTime)]⟩
        | some st' =>
          (mqttRecvBodyTraced waitTime script st'
            (readLen + 1 - pieceLen n (readLen + 1) st.stream.length)).after
            [.recv (toInt32 waitTime)]

/-- A call, what it has done, and the block that `*data` points at once it has been written. -/
structure RecvTrace where
  result : RecvResult
  events : List RecvEvent
  block : Option ℕ
deriving DecidableEq

/-- `mqtt_recv` behind the fixed header.  The time left is looked at once, and where there is none
it is made `0`. -/
def mqttRecvRestTraced (env : RecvEnv) (st : RecvState) (script : List TcpRecv) : RecvTrace :=
  match mqttDecodeHeaderLength (Buffer.written (st.buffer.drop 1)) st.curLen with
  | none => ⟨.fault, [], none⟩
  | some hdr =>
    if hdr.ret < 0 then
      ⟨.returned (st.fail errTr50MqttRecvDecodeHdrLen script), [.free st.allocs], none⟩
    else
      match st.resize env hdr.decodedLen with
      | none => ⟨.returned (st.fail errTr50Malloc script), [], none⟩
      | some st' =>
        let waitTime := st'.startingTime + env.timeout - env.clock st'.readings
        let waitTime := if waitTime < 0 then 0 else waitTime
        let body := mqttRecvBodyTraced waitTime script st'.tick hdr.decodedLen
        let events := st.resizeEvents env hdr.decodedLen ++ body.events
        match body.loop with
        | .exit r => ⟨r, events, none⟩
        | .done st script =>
          ⟨.returned ⟨0, st.buffer, st.curLen, st.stream, script, st.byteRecv,
            some (env.clock st.readings)⟩, events, some st.allocs⟩

/-- `mqtt_recv`. -/
def mqttRecvTraced (env : RecvEnv) (script : List TcpRecv) (stream : List UInt8) (byteRecv : ℤ) :
    RecvTrace :=
  let st : RecvState := ⟨[], 0, env.clock 0, 0, 1, stream, byteRecv⟩
  if env.malloc 0 then
    let st := { st with buffer := Buffer.alloc mqttDefaultRecvBufLen, allocs := 1 }
    let header := mqttRecvHeaderTraced env script st 2
    match header.loop with
    | .exit r => ⟨r, .alloc 1 :: header.events, none⟩
    | .done st script =>
      let rest := mqttRecvRestTraced env st script
      ⟨rest.result, .alloc 1 :: header.events ++ rest.events, rest.block⟩
  else ⟨.returned (st.fail errTr50Malloc script), [], none⟩

/-! ## …and the call it annotates -/

theorem mqttRecvEnterTraced_fst (env : RecvEnv) (st : RecvState) (readLen : ℕ)
    (script : List TcpRecv) :
    (mqttRecvEnterTraced env st readLen script).1 = mqttRecvEnter env st readLen script := by
  unfold mqttRecvEnterTraced mqttRecvEnter
  dsimp only
  split_ifs
  · rfl
  · cases st.tick.resize env readLen <;> rfl

/-- **The annotations change nothing**: the header loop… -/
theorem mqttRecvHeaderTraced_loop (env : RecvEnv) (script : List TcpRecv) :
    ∀ (st : RecvState) (readLen : ℕ),
      (mqttRecvHeaderTraced env script st readLen).loop = mqttRecvHeader env script st readLen := by
  induction script with
  | nil =>
    intro st readLen
    rw [mqttRecvHeaderTraced, mqttRecvHeader, ← mqttRecvEnterTraced_fst]
    split <;> simp_all
  | cons ev script ih =>
    intro st readLen
    rw [mqttRecvHeaderTraced, mqttRecvHeader, ← mqttRecvEnterTraced_fst]
    obtain ⟨entered, events⟩ := mqttRecvEnterTraced env st readLen (ev :: script)
    cases entered with
    | error r => rfl
    | ok st =>
      cases ev with
      | failed e he => rfl
      | piece n =>
        by_cases hs : st.stream = []
        · simp only [if_pos hs]
        simp only [if_neg hs]
        cases RecvState.accept _ readLen n with
        | none => rfl
        | some st =>
          by_cases hlen : st.curLen > 1
          · simp only [if_pos hlen]
            cases st.lastByte with
            | none => rfl
            | some d =>
              by_cases hd : d &&& 128 = 0
              · simp only [if_pos hd]
              · simp only [if_neg hd]
                exact ih st 1
          · simp only [if_neg hlen]
            exact ih st 1

/-- …the body loop… -/
theorem mqttRecvBodyTraced_loop (waitTime : ℤ) (script : List TcpRecv) :
    ∀ (st : RecvState) (readLen : ℕ),
      (mqttRecvBodyTraced waitTime script st readLen).loop = mqttRecvBody script st readLen := by
  induction script with
  | nil =>
    intro st readLen
    cases readLen <;> rfl
  | cons ev script ih =>
    intro st readLen
    cases readLen with
    | zero => rfl
    | succ readLen =>
      cases ev with
      | failed e he => rfl
      | piece n =>
        rw [mqttRecvBodyTraced, mqttRecvBody]
        by_cases hs : st.stream = []
        · simp only [if_pos hs]
        simp only [if_neg hs]
        cases st.accept (readLen + 1) n with
        | none => rfl
        | some st' => exact ih st' _

theorem mqttRecvRestTraced_result (env : RecvEnv) (st : RecvState) (script : List TcpRecv) :
    (mqttRecvRestTraced env st script).result = mqttRecvRest env st script := by
  unfold mqttRecvRestTraced mqttRecvRest
  cases mqttDecodeHeaderLength (Buffer.written (st.buffer.drop 1)) st.curLen with
  | none => rfl
  | some hdr =>
    dsimp only
    split_ifs
    · rfl
    cases st.resize env hdr.decodedLen with
    | none => rfl
    | some st' =>
      dsimp only
      rw [mqttRecvBodyTraced_loop]
      cases mqttRecvBody script st'.tick hdr.decodedLen <;> rfl

/-- …and the call. -/
theorem mqttRecvTraced_result (env : RecvEnv) (script : List TcpRecv) (stream : List UInt8)
    (byteRecv : ℤ) :
    (mqttRecvTraced env script stream byteRecv).result = mqttRecv env script stream byteRecv := by
  unfold mqttRecvTraced mqttRecv
  dsimp only
  split_ifs
  · rw [mqttRecvHeaderTraced_loop]
    cases mqttRecvHeader env script
        ⟨Buffer.alloc mqttDefaultRecvBufLen, 0, env.clock 0, 1, 1, stream, byteRecv⟩ 2 with
    | exit r => rfl
    | done st script => exact mqttRecvRestTraced_result env st script
  · rfl

/-! ## Where the header loop can be -/

/-- What a round of the header loop asks for behind `vs`. -/
def headerReadLen (vs : List UInt8) : ℕ := if vs = [] then 2 else 1

/-- The time left at the check behind `k` reads.  The first counts from the start of the call, the
later ones from the first byte. -/
def RecvEnv.slack (env : RecvEnv) (k : ℕ) : ℤ :=
  if k = 0 then env.clock 0 + env.timeout - env.clock 1
  else env.clock 2 + env.timeout - env.clock (k + 2)

/-- `len` more bytes behind `n` do not fit into the buffer. -/
def Outgrows (n len : ℕ) : Prop := max mqttDefaultRecvBufLen n < n + len

instance (n len : ℕ) : Decidable (Outgrows n len) := inferInstanceAs (Decidable (_ < _))

/-- The blocks granted by the time `n` bytes of a header have been read. -/
def headerAllocs (n : ℕ) : ℕ := n - mqttDefaultRecvBufLen + 1

/-- There is room for `len` more bytes behind `n`, or it is granted. -/
def RecvEnv.Grants (env : RecvEnv) (n len : ℕ) : Prop :=
  Outgrows n len → env.malloc (headerAllocs n)

/-- **How far the header loop can get**: `k` reads have been answered and have taken `vs`, and
`script` and `stream` are left.  A read takes what the system has at hand of what is asked for, and
before it there has been time left and room. -/
inductive HeaderReached (env : RecvEnv) (script₀ : List TcpRecv) (stream₀ : List UInt8) :
    ℕ → List UInt8 → List TcpRecv → List UInt8 → Prop
  | start (hmalloc : env.malloc 0) : HeaderReached env script₀ stream₀ 0 [] script₀ stream₀
  | read {k n : ℕ} {vs ws rest : List UInt8} {script : List TcpRecv}
      (h : HeaderReached env script₀ stream₀ k vs (.piece n :: script) (ws ++ rest))
      (sofar : HeaderSoFar vs) (time : 0 ≤ env.slack k)
      (room : env.Grants vs.length (headerReadLen vs)) (hne : ws ≠ [])
      (hlen : ws.length = pieceLen n (headerReadLen vs) (ws ++ rest).length) :
      HeaderReached env script₀ stream₀ (k + 1) (vs ++ ws) script rest

/-- The locals of the call there. -/
def headerAt (env : RecvEnv) (k : ℕ) (vs rest : List UInt8) (byteRecv : ℤ) : RecvState :=
  ⟨Buffer.filled vs (max mqttDefaultRecvBufLen vs.length), vs.length,
    if vs = [] then env.clock 0 else env.clock 2, headerAllocs vs.length,
    if vs = [] then 1 else k + 2, rest, byteRecv + vs.length⟩

section Position

variable {env : RecvEnv} {script₀ script : List TcpRecv} {stream₀ rest vs : List UInt8} {k : ℕ}

/-- Nothing has been read before the first answer, and something has behind it. -/
theorem HeaderReached.eq_zero_iff (h : HeaderReached env script₀ stream₀ k vs script rest) :
    k = 0 ↔ vs = [] := by
  cases h with
  | start => simp
  | read h sofar time room hne hlen => simp [hne]

theorem HeaderReached.malloc (h : HeaderReached env script₀ stream₀ k vs script rest) :
    env.malloc 0 := by
  induction h with
  | start hmalloc => exact hmalloc
  | read h sofar time room hne hlen ih => exact ih

/-- The loop is still in the header there, or the header is complete. -/
theorem HeaderReached.cases_sofar (h : HeaderReached env script₀ stream₀ k vs script rest) :
    HeaderSoFar vs
      ∨ ∃ b0 ds d, vs = b0 :: (ds ++ [d]) ∧ (∀ d ∈ ds, 128 ≤ d.toNat) ∧ d.toNat < 128 := by
  cases h with
  | start => exact Or.inl (Or.inl rfl)
  | @read k n vs ws rest script h sofar time room hne hlen =>
    have hle : ws.length ≤ headerReadLen vs := by
      rw [hlen, pieceLen]
      omega
    rcases sofar.grow hne hle with ⟨b0, hb⟩ | ⟨b0, ds, d, hb, hds⟩
    · exact Or.inl (Or.inr ⟨b0, [], hb, by simp⟩)
    by_cases hd : d.toNat < 128
    · exact Or.inr ⟨b0, ds, d, hb, hds, hd⟩
    · refine Or.inl (Or.inr ⟨b0, ds ++ [d], hb, fun x hx => ?_⟩)
      rcases List.mem_append.mp hx with hx | hx
      · exact hds x hx
      · rw [List.mem_singleton.mp hx]
        omega

/-- The check there finds just the time that is left. -/
theorem HeaderReached.slack_eq (h : HeaderReached env script₀ stream₀ k vs script rest)
    (byteRecv : ℤ) :
    (headerAt env k vs rest byteRecv).startingTime + env.timeout
      - env.clock (headerAt env k vs rest byteRecv).readings = env.slack k := by
  by_cases hvs : vs = []
  · simp [headerAt, RecvEnv.slack, hvs, h.eq_zero_iff.mpr hvs]
  · simp [headerAt, RecvEnv.slack, hvs, mt h.eq_zero_iff.mp hvs]

end Position

/-! ## One round -/

/-- The blocks granted once there is room for `len` bytes behind `n`… -/
def grownAllocs (n len : ℕ) : ℕ := if Outgrows n len then headerAllocs n + 1 else headerAllocs n

/-- …and what has been done for it. -/
def growth (n len : ℕ) : List RecvEvent :=
  if Outgrows n len then [.free (headerAllocs n), .alloc (headerAllocs n + 1)] else []

section Room

variable (env : RecvEnv) (vs : List UInt8) (start : ℤ) (t : ℕ) (rest : List UInt8) (byteRecv : ℤ)

/-- The buffer of a header, before a resize. -/
theorem outgrows_filled_iff (len : ℕ) :
    (len : ℤ) > (Buffer.filled vs (max mqttDefaultRecvBufLen vs.length)).length - (vs.length : ℤ)
      ↔ Outgrows vs.length len := by
  rw [Buffer.length_filled (le_max_right _ _), Outgrows]
  omega

/-- A resize that is granted makes the room that is missing… -/
theorem resize_granted {len : ℕ} (h : env.Grants vs.length len) :
    RecvState.resize env ⟨Buffer.filled vs (max mqttDefaultRecvBufLen vs.length), vs.length, start,
        headerAllocs vs.length, t, rest, byteRecv⟩ len
      = some ⟨Buffer.filled vs (max (max mqttDefaultRecvBufLen vs.length) (vs.length + len)),
          vs.length, start, grownAllocs vs.length len, t, rest, byteRecv⟩ := by
  simp only [RecvState.resize, outgrows_filled_iff, grownAllocs]
  by_cases hgrow : Outgrows vs.length len
  · rw [if_pos hgrow, if_pos (h hgrow), if_pos hgrow,
      Buffer.filled_realloc (le_max_right _ _) hgrow.le, max_eq_right hgrow.le]
  · rw [if_neg hgrow, if_neg hgrow, max_eq_left (not_lt.mp hgrow)]

/-- …and one that is refused gives nothing. -/
theorem resize_refused {len : ℕ} (h : ¬ env.Grants vs.length len) :
    RecvState.resize env ⟨Buffer.filled vs (max mqttDefaultRecvBufLen vs.length), vs.length, start,
      headerAllocs vs.length, t, rest, byteRecv⟩ len = none := by
  obtain ⟨hgrow, hmalloc⟩ := Classical.not_imp.mp h
  simp only [RecvState.resize, outgrows_filled_iff]
  rw [if_pos hgrow, if_neg hmalloc]

theorem resizeEvents_granted {len : ℕ} (h : env.Grants vs.length len) :
    RecvState.resizeEvents env ⟨Buffer.filled vs (max mqttDefaultRecvBufLen vs.length), vs.length,
      start, headerAllocs vs.length, t, rest, byteRecv⟩ len = growth vs.length len := by
  simp only [RecvState.resizeEvents, outgrows_filled_iff, growth]
  exact if_congr ⟨fun h => h.1, fun hgrow => ⟨hgrow, h hgrow⟩⟩ rfl rfl

end Room

/-- The locals of the call at the `_tcp_recv` of a round… -/
def headerRoomAt (env : RecvEnv) (k : ℕ) (vs rest : List UInt8) (byteRecv : ℤ) : RecvState :=
  ⟨Buffer.filled vs
      (max (max mqttDefaultRecvBufLen vs.length) (vs.length + headerReadLen vs)), vs.length,
    if vs = [] then env.clock 0 else env.clock 2, grownAllocs vs.length (headerReadLen vs),
    (if vs = [] then 1 else k + 2) + 1, rest, byteRecv + vs.length⟩

/-- …and what the round has done up to there. -/
def roundEvents (env : RecvEnv) (k : ℕ) (vs : List UInt8) : List RecvEvent :=
  growth vs.length (headerReadLen vs) ++ [.recv (toInt32 (env.slack k))]

section Round

variable {env : RecvEnv} {script₀ script : List TcpRecv} {stream₀ rest vs : List UInt8} {k : ℕ}
  (h : HeaderReached env script₀ stream₀ k vs script rest) (byteRecv : ℤ)

include h

/-- A check that comes too late frees the block… -/
theorem HeaderReached.enter_late (time : env.slack k < 0) (len : ℕ) (script' : List TcpRecv) :
    mqttRecvEnterTraced env (headerAt env k vs rest byteRecv) len script'
      = (.error ((headerAt env k vs rest byteRecv).tick.fail errTr50Timeout script'),
          [.free (headerAllocs vs.length)]) := by
  unfold mqttRecvEnterTraced
  dsimp only
  rw [h.slack_eq, if_pos time]
  rfl

/-- …a resize that is refused does not… -/
theorem HeaderReached.enter_refused (time : 0 ≤ env.slack k) {len : ℕ}
    (room : ¬ env.Grants vs.length len) (script' : List TcpRecv) :
    mqttRecvEnterTraced env (headerAt env k vs rest byteRecv) len script'
      = (.error ((headerAt env k vs rest byteRecv).tick.fail errTr50Malloc script'), []) := by
  unfold mqttRecvEnterTraced
  dsimp only
  have hnone : (headerAt env k vs rest byteRecv).tick.resize env len = none :=
    resize_refused env vs _ _ rest _ room
  rw [h.slack_eq, if_neg (not_lt.mpr time), hnone]

/-- …and a round with time and room calls `_tcp_recv`. -/
theorem HeaderReached.enter_granted (time : 0 ≤ env.slack k)
    (room : env.Grants vs.length (headerReadLen vs)) (script' : List TcpRecv) :
    mqttRecvEnterTraced env (headerAt env k vs rest byteRecv) (headerReadLen vs) script'
      = (.ok (headerRoomAt env k vs rest byteRecv), roundEvents env k vs) := by
  unfold mqttRecvEnterTraced
  dsimp only
  have hsome : (headerAt env k vs rest byteRecv).tick.resize env (headerReadLen vs)
      = some (headerRoomAt env k vs rest byteRecv) := resize_granted env vs _ _ rest _ room
  have hevents : (headerAt env k vs rest byteRecv).resizeEvents env (headerReadLen vs)
      = growth vs.length (headerReadLen vs) := resizeEvents_granted env vs _ _ rest _ room
  rw [h.slack_eq, if_neg (not_lt.mpr time), hevents, hsome]
  rfl

end Round

section Answered

variable {env : RecvEnv} {script₀ script : List TcpRecv} {stream₀ ws rest vs : List UInt8}
  {k n : ℕ}

/-- The first round may be answered with two bytes, every other is with one. -/
theorem answered_length (hlen : ws.length = pieceLen n (headerReadLen vs) (ws ++ rest).length)
    (hne : ws ≠ []) :
    (vs.length = 0 ∧ headerReadLen vs = 2 ∧ ws.length ≤ 2)
      ∨ (headerReadLen vs = 1 ∧ ws.length = 1) := by
  have hpos := List.length_pos_of_ne_nil hne
  rw [pieceLen] at hlen
  by_cases hvs : vs = []
  · rw [headerReadLen, if_pos hvs] at hlen ⊢
    exact Or.inl ⟨List.length_eq_zero_iff.mpr hvs, rfl, by omega⟩
  · rw [headerReadLen, if_neg hvs] at hlen ⊢
    exact Or.inr ⟨rfl, by omega⟩

/-- The room a round has made is the room of what is then in the buffer… -/
theorem room_answered (hlen : ws.length = pieceLen n (headerReadLen vs) (ws ++ rest).length)
    (hne : ws ≠ []) :
    max (max mqttDefaultRecvBufLen vs.length) (vs.length + headerReadLen vs)
      = max mqttDefaultRecvBufLen (vs ++ ws).length := by
  have hdef : mqttDefaultRecvBufLen = 128 := rfl
  rw [List.length_append]
  rcases answered_length hlen hne with ⟨h0, h2, hle⟩ | ⟨h1, hws⟩ <;> omega

/-- …and so are the blocks. -/
theorem grownAllocs_answered
    (hlen : ws.length = pieceLen n (headerReadLen vs) (ws ++ rest).length) (hne : ws ≠ []) :
    grownAllocs vs.length (headerReadLen vs) = headerAllocs (vs ++ ws).length := by
  have hdef : mqttDefaultRecvBufLen = 128 := rfl
  have hlength := answered_length hlen hne
  rw [headerAllocs, List.length_append]
  by_cases hgrow : Outgrows vs.length (headerReadLen vs)
  · rw [grownAllocs, if_pos hgrow, headerAllocs]
    unfold Outgrows at hgrow
    omega
  · rw [grownAllocs, if_neg hgrow, headerAllocs]
    unfold Outgrows at hgrow
    omega

/-- **The bytes of an answer go to the edge of the buffer**, and the first of them resets the
clock. -/
theorem HeaderReached.accept
    (h : HeaderReached env script₀ stream₀ k vs (.piece n :: script) (ws ++ rest)) (byteRecv : ℤ)
    (hne : ws ≠ []) (hlen : ws.length = pieceLen n (headerReadLen vs) (ws ++ rest).length) :
    RecvState.accept
        (if (headerRoomAt env k vs (ws ++ rest) byteRecv).curLen = 0 then
          { (headerRoomAt env k vs (ws ++ rest) byteRecv).tick with
            startingTime := env.clock (headerRoomAt env k vs (ws ++ rest) byteRecv).readings }
        else headerRoomAt env k vs (ws ++ rest) byteRecv) (headerReadLen vs) n
      = some (headerAt env (k + 1) (vs ++ ws) rest byteRecv) := by
  have hstate : (if (headerRoomAt env k vs (ws ++ rest) byteRecv).curLen = 0 then
      { (headerRoomAt env k vs (ws ++ rest) byteRecv).tick with
        startingTime := env.clock (headerRoomAt env k vs (ws ++ rest) byteRecv).readings }
      else headerRoomAt env k vs (ws ++ rest) byteRecv)
      = ⟨Buffer.filled vs (max (max mqttDefaultRecvBufLen vs.length)
            (vs.length + headerReadLen vs)), vs.length, env.clock 2,
          grownAllocs vs.length (headerReadLen vs), k + 3, ws ++ rest, byteRecv + vs.length⟩ := by
    by_cases hvs : vs = []
    · obtain rfl := h.eq_zero_iff.mpr hvs
      subst hvs
      rfl
    · rw [if_neg (by simpa [headerRoomAt] using hvs)]
      simp [headerRoomAt, hvs]
  obtain ⟨ws', rest', -, -, hlen', happ, hacc⟩ := @accept_filled vs _ (env.clock 2)
    (grownAllocs vs.length (headerReadLen vs)) (k + 3) (byteRecv + vs.length) _ _ n
    (le_max_right (max mqttDefaultRecvBufLen vs.length) (vs.length + headerReadLen vs))
    (by rw [headerReadLen]; split_ifs <;> omega) (by simp [hne] : ws ++ rest ≠ [])
  obtain ⟨rfl, rfl⟩ := List.append_inj happ (hlen.trans hlen'.symm)
  rw [hstate, hacc, room_answered hlen hne, grownAllocs_answered hlen hne]
  simp only [headerAt, hne, List.append_eq_nil_iff, and_false, if_false, List.length_append]
  push_cast
  rw [add_assoc]

/-- **A round that is answered goes on behind its answer**, or is the last. -/
theorem HeaderReached.next
    (h : HeaderReached env script₀ stream₀ k vs (.piece n :: script) (ws ++ rest)) (byteRecv : ℤ)
    (sofar : HeaderSoFar vs) (time : 0 ≤ env.slack k)
    (room : env.Grants vs.length (headerReadLen vs)) (hne : ws ≠ [])
    (hlen : ws.length = pieceLen n (headerReadLen vs) (ws ++ rest).length) :
    (HeaderSoFar (vs ++ ws) →
      mqttRecvHeaderTraced env (.piece n :: script) (headerAt env k vs (ws ++ rest) byteRecv)
          (headerReadLen vs)
        = (mqttRecvHeaderTraced env script (headerAt env (k + 1) (vs ++ ws) rest byteRecv)
            (headerReadLen (vs ++ ws))).after (roundEvents env k vs))
    ∧ (¬ HeaderSoFar (vs ++ ws) →
      mqttRecvHeaderTraced env (.piece n :: script) (headerAt env k vs (ws ++ rest) byteRecv)
          (headerReadLen vs)
        = ⟨.done (headerAt env (k + 1) (vs ++ ws) rest byteRecv) script,
            roundEvents env k vs⟩) := by
  have hstream : ¬ (headerRoomAt env k vs (ws ++ rest) byteRecv).stream = [] := by
    simp [headerRoomAt, hne]
  have hreadLen : headerReadLen (vs ++ ws) = 1 := by simp [headerReadLen, hne]
  have hle : ws.length ≤ headerReadLen vs := by
    rw [hlen, pieceLen]
    omega
  rw [mqttRecvHeaderTraced, h.enter_granted byteRecv time room]
  simp only [if_neg hstream, h.accept byteRecv hne hlen, hreadLen]
  have hcur : (headerAt env (k + 1) (vs ++ ws) rest byteRecv).curLen = (vs ++ ws).length := rfl
  rcases sofar.grow hne hle with ⟨b0, hb⟩ | ⟨b0, ds, d, hb, hds⟩
  · rw [if_neg (by rw [hcur, hb]; simp)]
    exact ⟨fun _ => rfl, fun hno => absurd (Or.inr ⟨b0, [], hb, by simp⟩) hno⟩
  have hlast : (headerAt env (k + 1) (vs ++ ws) rest byteRecv).lastByte = some d := by
    rw [hb, ← List.cons_append]
    exact lastByte_filled _ _ _ rest _
  rw [if_pos (by rw [hcur, hb]; simp), hlast]
  have hsofar : HeaderSoFar (vs ++ ws) ↔ 128 ≤ d.toNat := by
    rw [hb]
    constructor
    · rintro (h | ⟨b0', ds', heq, hds'⟩)
      · cases h
      · obtain ⟨-, rfl⟩ := List.cons.inj heq
        exact hds' d (by simp)
    · refine fun hd => Or.inr ⟨b0, ds ++ [d], rfl, fun x hx => ?_⟩
      rcases List.mem_append.mp hx with hx | hx
      · exact hds x hx
      · rwa [List.mem_singleton.mp hx]
  rw [hsofar, ← and_128_ne_zero_iff]
  constructor
  · intro hd
    simp only [if_neg hd]
  · intro hd
    simp only [if_pos (not_not.mp hd)]

end Answered

/-! ## The header loop -/

/-- What an event says of the blocks, if they are called `f`. -/
def RecvEvent.own {α : Type} (f : ℕ → α) : RecvEvent → Option (Own α)
  | alloc block => some (.acquire (f block))
  | free block => some (.release (f block))
  | recv _ => none

/-- Making room moves the block, or leaves it where it is. -/
theorem relay_growth {α : Type} {f : ℕ → α} {n : ℕ} {log : List (Own α)} {a : ℕ}
    (h : Own.Relay f a (headerAllocs n) log) (len : ℕ) :
    Own.Relay f a (grownAllocs n len) (log ++ (growth n len).filterMap (RecvEvent.own f)) := by
  by_cases hgrow : Outgrows n len
  · rw [grownAllocs, growth, if_pos hgrow, if_pos hgrow]
    exact h.next
  · rw [grownAllocs, growth, if_neg hgrow, if_neg hgrow, List.filterMap_nil, List.append_nil]
    exact h

/-- A read of the header loop: the loop is there, with time left and room. -/
structure HeaderAsks (env : RecvEnv) (script₀ : List TcpRecv) (stream₀ : List UInt8) (k : ℕ)
    (vs : List UInt8) (script : List TcpRecv) (rest : List UInt8) : Prop where
  reached : HeaderReached env script₀ stream₀ k vs script rest
  sofar : HeaderSoFar vs
  time : 0 ≤ env.slack k
  room : env.Grants vs.length (headerReadLen vs)

/-- The events before a place of the header loop: they ask the socket only at places before it,
they move the block, and the loop goes on from there. -/
structure HeaderPrefix (env : RecvEnv) (script₀ : List TcpRecv) (stream₀ : List UInt8)
    (byteRecv : ℤ) (k : ℕ) (vs : List UInt8) (script : List TcpRecv) (rest : List UInt8)
    (events : List RecvEvent) : Prop where
  waits (t : ℤ) : .recv t ∈ events →
    ∃ k vs script rest, HeaderAsks env script₀ stream₀ k vs script rest ∧ t = toInt32 (env.slack k)
  moves {α : Type} (f : ℕ → α) :
    Own.Relay f 1 (headerAllocs vs.length) (events.filterMap (RecvEvent.own f))
  goesOn : HeaderSoFar vs →
    mqttRecvHeaderTraced env script₀ (headerAt env 0 [] stream₀ byteRecv) 2
      = (mqttRecvHeaderTraced env script (headerAt env k vs rest byteRecv)
          (headerReadLen vs)).after events
  ends : ¬ HeaderSoFar vs →
    mqttRecvHeaderTraced env script₀ (headerAt env 0 [] stream₀ byteRecv) 2
      = ⟨.done (headerAt env k vs rest byteRecv) script, events⟩

/-- What a round asks of the socket. -/
theorem recv_mem_roundEvents {env : RecvEnv} {k : ℕ} {vs : List UInt8} {t : ℤ}
    (h : .recv t ∈ roundEvents env k vs) : t = toInt32 (env.slack k) := by
  rcases List.mem_append.mp h with h | h
  · unfold growth at h
    split_ifs at h <;> simp at h
  · simpa using h

/-- A call of `_tcp_recv` leaves the blocks alone. -/
theorem filterMap_roundEvents {α : Type} (f : ℕ → α) (env : RecvEnv) (k : ℕ) (vs : List UInt8) :
    (roundEvents env k vs).filterMap (RecvEvent.own f)
      = (growth vs.length (headerReadLen vs)).filterMap (RecvEvent.own f) := by
  rw [roundEvents, List.filterMap_append]
  exact List.append_nil _

section Loop

variable {env : RecvEnv} {script₀ script : List TcpRecv} {stream₀ rest vs : List UInt8} {k : ℕ}

/-- **The header loop gets to every place that can be reached.** -/
theorem HeaderReached.traced (h : HeaderReached env script₀ stream₀ k vs script rest)
    (byteRecv : ℤ) :
    ∃ events, HeaderPrefix env script₀ stream₀ byteRecv k vs script rest events := by
  induction h with
  | start hmalloc =>
    exact ⟨[], ⟨by simp, fun f => .refl, fun _ => rfl, fun hno => absurd (Or.inl rfl) hno⟩⟩
  | @read k n vs ws rest script h sofar time room hne hlen ih =>
    obtain ⟨events, hfront⟩ := ih
    obtain ⟨hgoes, hends⟩ := h.next byteRecv sofar time room hne hlen
    refine ⟨events ++ roundEvents env k vs, ⟨fun t ht => ?_, fun f => ?_, fun hsofar => ?_,
      fun hno => ?_⟩⟩
    · rcases List.mem_append.mp ht with ht | ht
      · exact hfront.waits t ht
      · exact ⟨k, vs, _, _, ⟨h, sofar, time, room⟩, recv_mem_roundEvents ht⟩
    · have hmoved := relay_growth (hfront.moves f) (headerReadLen vs)
      rw [grownAllocs_answered hlen hne] at hmoved
      rw [List.filterMap_append, filterMap_roundEvents]
      exact hmoved
    · rw [hfront.goesOn sofar, hgoes hsofar]
      simp only [LoopTrace.after, List.append_assoc]
    · rw [hfront.goesOn sofar, hends hno]
      rfl

/-- Where the header loop ends. -/
inductive HeaderEnd (env : RecvEnv) (k : ℕ) (vs : List UInt8) (script : List TcpRecv)
    (rest : List UInt8) : Prop
  | late (sofar : HeaderSoFar vs) (time : env.slack k < 0)
  | refused (sofar : HeaderSoFar vs) (time : 0 ≤ env.slack k)
      (room : ¬ env.Grants vs.length (headerReadLen vs))
  /-- The socket has no answer yet. -/
  | waiting (sofar : HeaderSoFar vs) (time : 0 ≤ env.slack k)
      (room : env.Grants vs.length (headerReadLen vs))
      (none : script = [] ∨ rest = [] ∧ ∃ n script', script = .piece n :: script')
  | failed (sofar : HeaderSoFar vs) (time : 0 ≤ env.slack k)
      (room : env.Grants vs.length (headerReadLen vs)) {e : ℤ} (he : e < 0)
      (script' : List TcpRecv) (hscript : script = .failed e he :: script')
  | complete {b0 : UInt8} {f : List UInt8} {v : ℕ} (hvs : vs = b0 :: f) (hf : IsLengthField f v)

/-- From wherever it is, the loop comes to an end. -/
theorem HeaderReached.exists_end (h : HeaderReached env script₀ stream₀ k vs script rest) :
    ∃ k vs script rest, HeaderReached env script₀ stream₀ k vs script rest
      ∧ HeaderEnd env k vs script rest := by
  induction script generalizing k vs rest with
  | nil =>
    rcases h.cases_sofar with sofar | ⟨b0, ds, d, hvs, hds, hd⟩
    · by_cases time : env.slack k < 0
      · exact ⟨k, vs, _, rest, h, .late sofar time⟩
      by_cases room : env.Grants vs.length (headerReadLen vs)
      · exact ⟨k, vs, _, rest, h, .waiting sofar (not_lt.mp time) room (Or.inl rfl)⟩
      · exact ⟨k, vs, _, rest, h, .refused sofar (not_lt.mp time) room⟩
    · obtain ⟨v, hf⟩ := exists_isLengthField hds hd
      exact ⟨k, vs, _, rest, h, .complete hvs hf⟩
  | cons ev script ih =>
    rcases h.cases_sofar with sofar | ⟨b0, ds, d, hvs, hds, hd⟩
    swap
    · obtain ⟨v, hf⟩ := exists_isLengthField hds hd
      exact ⟨k, vs, _, rest, h, .complete hvs hf⟩
    by_cases time : env.slack k < 0
    · exact ⟨k, vs, _, rest, h, .late sofar time⟩
    by_cases room : env.Grants vs.length (headerReadLen vs)
    swap
    · exact ⟨k, vs, _, rest, h, .refused sofar (not_lt.mp time) room⟩
    cases ev with
    | failed e he => exact ⟨k, vs, _, rest, h, .failed sofar (not_lt.mp time) room he script rfl⟩
    | piece n =>
      by_cases hrest : rest = []
      · exact ⟨k, vs, _, rest, h,
          .waiting sofar (not_lt.mp time) room (Or.inr ⟨hrest, n, script, rfl⟩)⟩
      obtain ⟨ws, rest', hne, -, hlen, rfl, -⟩ := @accept_filled vs _ 0 0 0 0 _ _ n le_rfl
        (by rw [headerReadLen]; split_ifs <;> omega : 0 < headerReadLen vs) hrest
      exact ih (h.read sofar (not_lt.mp time) room hne hlen)

end Loop

section Ends

variable {env : RecvEnv} {script₀ script : List TcpRecv} {stream₀ rest vs : List UInt8} {k : ℕ}

/-- A check that comes too late ends the loop… -/
theorem HeaderReached.traced_late (h : HeaderReached env script₀ stream₀ k vs script rest)
    (byteRecv : ℤ) (time : env.slack k < 0) :
    mqttRecvHeaderTraced env script (headerAt env k vs rest byteRecv) (headerReadLen vs)
      = ⟨.exit (.returned ((headerAt env k vs rest byteRecv).tick.fail errTr50Timeout script)),
          [.free (headerAllocs vs.length)]⟩ := by
  cases script with
  | nil => rw [mqttRecvHeaderTraced, h.enter_late byteRecv time]
  | cons ev script => rw [mqttRecvHeaderTraced, h.enter_late byteRecv time]

/-- …and so does a resize that is refused… -/
theorem HeaderReached.traced_refused (h : HeaderReached env script₀ stream₀ k vs script rest)
    (byteRecv : ℤ) (time : 0 ≤ env.slack k)
    (room : ¬ env.Grants vs.length (headerReadLen vs)) :
    mqttRecvHeaderTraced env script (headerAt env k vs rest byteRecv) (headerReadLen vs)
      = ⟨.exit (.returned ((headerAt env k vs rest byteRecv).tick.fail errTr50Malloc script)),
          []⟩ := by
  cases script with
  | nil => rw [mqttRecvHeaderTraced, h.enter_refused byteRecv time room]
  | cons ev script => rw [mqttRecvHeaderTraced, h.enter_refused byteRecv time room]

/-- …a read without an answer is where it stays… -/
theorem HeaderReached.traced_waiting (h : HeaderReached env script₀ stream₀ k vs script rest)
    (byteRecv : ℤ) (time : 0 ≤ env.slack k) (room : env.Grants vs.length (headerReadLen vs))
    (none : script = [] ∨ rest = [] ∧ ∃ n script', script = .piece n :: script') :
    mqttRecvHeaderTraced env script (headerAt env k vs rest byteRecv) (headerReadLen vs)
      = ⟨.exit .waiting, roundEvents env k vs⟩ := by
  rcases none with rfl | ⟨rfl, n, script', rfl⟩
  · rw [mqttRecvHeaderTraced, h.enter_granted byteRecv time room]
  · rw [mqttRecvHeaderTraced, h.enter_granted byteRecv time room]
    exact if_pos rfl

/-- …and one that fails frees the block. -/
theorem HeaderReached.traced_failed {e : ℤ} {he : e < 0}
    (h : HeaderReached env script₀ stream₀ k vs (.failed e he :: script) rest) (byteRecv : ℤ)
    (time : 0 ≤ env.slack k) (room : env.Grants vs.length (headerReadLen vs)) :
    mqttRecvHeaderTraced env (.failed e he :: script) (headerAt env k vs rest byteRecv)
        (headerReadLen vs)
      = ⟨.exit (.returned ((headerRoomAt env k vs rest byteRecv).fail e script)),
          roundEvents env k vs ++ [.free (grownAllocs vs.length (headerReadLen vs))]⟩ := by
  have hret : (if (headerRoomAt env k vs rest byteRecv).curLen > 0 ∧ e = errTr50Timeout
      then errTr50Timeout else e) = e := by
    split_ifs with h
    · exact h.2.symm
    · rfl
  rw [mqttRecvHeaderTraced, h.enter_granted byteRecv time room]
  dsimp only
  rw [hret]
  rfl

/-- A read of the loop asks the socket with the time left. -/
theorem HeaderAsks.traced (h : HeaderAsks env script₀ stream₀ k vs script rest) (byteRecv : ℤ) :
    .recv (toInt32 (env.slack k))
      ∈ (mqttRecvHeaderTraced env script (headerAt env k vs rest byteRecv)
          (headerReadLen vs)).events := by
  have hround : .recv (toInt32 (env.slack k)) ∈ roundEvents env k vs :=
    List.mem_append_right _ (List.mem_singleton_self _)
  cases script with
  | nil =>
    rw [h.reached.traced_waiting byteRecv h.time h.room (Or.inl rfl)]
    exact hround
  | cons ev script =>
    cases ev with
    | failed e he =>
      rw [h.reached.traced_failed byteRecv h.time h.room]
      exact List.mem_append_left _ hround
    | piece n =>
      by_cases hrest : rest = []
      · rw [h.reached.traced_waiting byteRecv h.time h.room (Or.inr ⟨hrest, n, script, rfl⟩)]
        exact hround
      obtain ⟨ws, rest', hne, -, hlen, rfl, -⟩ := @accept_filled vs _ 0 0 0 0 _ _ n le_rfl
        (by rw [headerReadLen]; split_ifs <;> omega : 0 < headerReadLen vs) hrest
      obtain ⟨hgoes, hends⟩ := h.reached.next byteRecv h.sofar h.time h.room hne hlen
      by_cases hsofar : HeaderSoFar (vs ++ ws)
      · rw [hgoes hsofar]
        exact List.mem_append_left _ hround
      · rw [hends hsofar]
        exact hround

end Ends

/-! ## The body -/

/-- Every read of the body has the same timeout, and there is one where there is a body. -/
theorem recv_mem_mqttRecvBodyTraced {waitTime t : ℤ} {script : List TcpRecv} :
    ∀ {st : RecvState} {readLen : ℕ},
      .recv t ∈ (mqttRecvBodyTraced waitTime script st readLen).events
        ↔ 0 < readLen ∧ t = toInt32 waitTime := by
  induction script with
  | nil =>
    intro st readLen
    cases readLen <;> simp [mqttRecvBodyTraced]
  | cons ev script ih =>
    intro st readLen
    cases readLen with
    | zero => simp [mqttRecvBodyTraced]
    | succ readLen =>
      cases ev with
      | failed e he => simp [mqttRecvBodyTraced]
      | piece n =>
        rw [mqttRecvBodyTraced]
        by_cases hs : st.stream = []
        · simp [hs]
        rw [if_neg hs]
        cases st.accept (readLen + 1) n with
        | none => simp
        | some st' =>
          simp only [LoopTrace.after, List.mem_append, List.mem_singleton, RecvEvent.recv.injEq, ih]
          omega

/-- An answer leaves the block where it is. -/
theorem RecvState.accept_allocs {st st' : RecvState} {readLen n : ℕ}
    (h : st.accept readLen n = some st') : st'.allocs = st.allocs := by
  obtain ⟨buffer, -, heq⟩ := Option.bind_eq_some_iff.mp h
  rw [← Option.some.inj heq]

/-- A failing read of the body frees the block, every other leaves it where it is. -/
theorem own_mqttRecvBodyTraced {α : Type} (f : ℕ → α) {waitTime : ℤ} {script : List TcpRecv} :
    ∀ {st : RecvState} {readLen : ℕ},
      (∀ r, (mqttRecvBodyTraced waitTime script st readLen).loop = .exit (.returned r) →
        r.ret < 0 ∧ (mqttRecvBodyTraced waitTime script st readLen).events.filterMap
          (RecvEvent.own f) = [.release (f st.allocs)])
      ∧ ∀ st' script',
        (mqttRecvBodyTraced waitTime script st readLen).loop = .done st' script' →
          st'.allocs = st.allocs ∧ (mqttRecvBodyTraced waitTime script st readLen).events.filterMap
            (RecvEvent.own f) = [] := by
  induction script with
  | nil =>
    intro st readLen
    cases readLen with
    | zero => exact ⟨fun r h => (by cases h), fun st' script' h => (by cases h; exact ⟨rfl, rfl⟩)⟩
    | succ readLen => exact ⟨fun r h => (by cases h), fun st' script' h => (by cases h)⟩
  | cons ev script ih =>
    intro st readLen
    cases readLen with
    | zero => exact ⟨fun r h => (by cases h), fun st' script' h => (by cases h; exact ⟨rfl, rfl⟩)⟩
    | succ readLen =>
      cases ev with
      | failed e he =>
        exact ⟨fun r h => (by cases h; exact ⟨he, rfl⟩), fun st' script' h => (by cases h)⟩
      | piece n =>
        rw [mqttRecvBodyTraced]
        by_cases hs : st.stream = []
        · rw [if_pos hs]
          exact ⟨fun r h => (by cases h), fun st' script' h => (by cases h)⟩
        rw [if_neg hs]
        cases hacc : st.accept (readLen + 1) n with
        | none => exact ⟨fun r h => (by cases h), fun st' script' h => (by cases h)⟩
        | some st' =>
          have hallocs := RecvState.accept_allocs hacc
          rw [← hallocs]
          exact ih

/-- The time the body is given. -/
def bodyWait (env : RecvEnv) (k : ℕ) : ℤ := if env.slack k < 0 then 0 else env.slack k

/-- The locals of the call at the body. -/
def bodyAt (env : RecvEnv) (k : ℕ) (vs rest : List UInt8) (byteRecv : ℤ) (len : ℕ) : RecvState :=
  ⟨Buffer.filled vs (max (max mqttDefaultRecvBufLen vs.length) (vs.length + len)), vs.length,
    if vs = [] then env.clock 0 else env.clock 2, grownAllocs vs.length len,
    (if vs = [] then 1 else k + 2) + 1, rest, byteRecv + vs.length⟩

/-- What the call makes of its body. -/
def bodyTrace (env : RecvEnv) (room : List RecvEvent) (body : LoopTrace) : RecvTrace :=
  match body.loop with
  | .exit r => ⟨r, room ++ body.events, none⟩
  | .done st script =>
    ⟨.returned ⟨0, st.buffer, st.curLen, st.stream, script, st.byteRecv,
      some (env.clock st.readings)⟩, room ++ body.events, some st.allocs⟩

section Rest

variable {env : RecvEnv} {script₀ script : List TcpRecv} {stream₀ rest : List UInt8} {k : ℕ}
  {b0 : UInt8} {f : List UInt8} {v : ℕ}

/-- A header of too many digits ends the call… -/
theorem rest_malformed (hf : IsLengthField f v) (hlong : 4 < f.length) (byteRecv : ℤ) :
    mqttRecvRestTraced env (headerAt env k (b0 :: f) rest byteRecv) script
      = ⟨.returned ((headerAt env k (b0 :: f) rest byteRecv).fail errTr50MqttRecvDecodeHdrLen
          script), [.free (headerAllocs (b0 :: f).length)], none⟩ := by
  have hdec := mqttDecodeHeaderLength_long hf hlong ((b0 :: f).length)
    (by rw [List.length_cons]; omega) []
  rw [List.append_nil] at hdec
  simp only [mqttRecvRestTraced, headerAt, Buffer.written_drop_one, hdec]
  rfl

/-- The decoder reads a header of at most four. -/
theorem decode_headerAt (hf : IsLengthField f v) (h4 : f.length ≤ 4) (byteRecv : ℤ) :
    mqttDecodeHeaderLength
        (Buffer.written ((headerAt env k (b0 :: f) rest byteRecv).buffer.drop 1))
        (headerAt env k (b0 :: f) rest byteRecv).curLen = some ⟨0, some f.length, v⟩ := by
  have hdec := mqttDecodeHeaderLength_field hf h4 ((b0 :: f).length)
    (by rw [List.length_cons]; omega) []
  rw [List.append_nil] at hdec
  simp only [headerAt, Buffer.written_drop_one, hdec]

/-- …a resize that is refused does… -/
theorem rest_refused (hf : IsLengthField f v) (h4 : f.length ≤ 4)
    (room : ¬ env.Grants (b0 :: f).length v) (byteRecv : ℤ) :
    mqttRecvRestTraced env (headerAt env k (b0 :: f) rest byteRecv) script
      = ⟨.returned ((headerAt env k (b0 :: f) rest byteRecv).fail errTr50Malloc script), [],
          none⟩ := by
  have hnone : (headerAt env k (b0 :: f) rest byteRecv).resize env v = none :=
    resize_refused env (b0 :: f) _ _ rest _ room
  unfold mqttRecvRestTraced
  rw [decode_headerAt hf h4]
  simp only [lt_irrefl, if_false, hnone]

/-- …and with room for it the body is read. -/
theorem HeaderReached.rest_granted
    (h : HeaderReached env script₀ stream₀ k (b0 :: f) script rest) (hf : IsLengthField f v)
    (h4 : f.length ≤ 4) (room : env.Grants (b0 :: f).length v) (byteRecv : ℤ) :
    mqttRecvRestTraced env (headerAt env k (b0 :: f) rest byteRecv) script
      = bodyTrace env (growth (b0 :: f).length v)
          (mqttRecvBodyTraced (bodyWait env k) script (bodyAt env k (b0 :: f) rest byteRecv v)
            v) := by
  have hsome : (headerAt env k (b0 :: f) rest byteRecv).resize env v = some
      ⟨Buffer.filled (b0 :: f) (max (max mqttDefaultRecvBufLen (b0 :: f).length)
          ((b0 :: f).length + v)), (b0 :: f).length,
        if b0 :: f = [] then env.clock 0 else env.clock 2, grownAllocs (b0 :: f).length v,
        if b0 :: f = [] then 1 else k + 2, rest, byteRecv + (b0 :: f).length⟩ :=
    resize_granted env (b0 :: f) _ _ rest _ room
  have hevents : (headerAt env k (b0 :: f) rest byteRecv).resizeEvents env v
      = growth (b0 :: f).length v := resizeEvents_granted env (b0 :: f) _ _ rest _ room
  have hwait : bodyWait env k = if (headerAt env k (b0 :: f) rest byteRecv).startingTime
      + env.timeout - env.clock (headerAt env k (b0 :: f) rest byteRecv).readings < 0 then 0
      else (headerAt env k (b0 :: f) rest byteRecv).startingTime + env.timeout
        - env.clock (headerAt env k (b0 :: f) rest byteRecv).readings := by
    rw [h.slack_eq byteRecv]
    rfl
  unfold mqttRecvRestTraced
  rw [decode_headerAt hf h4, hwait]
  simp only [lt_irrefl, if_false, hsome, hevents]
  rfl

end Rest

/-! ## The call -/

/-- What the call makes of its header. -/
def callTrace (env : RecvEnv) (header : LoopTrace) : RecvTrace :=
  match header.loop with
  | .exit r => ⟨r, .alloc 1 :: header.events, none⟩
  | .done st script =>
    let rest := mqttRecvRestTraced env st script
    ⟨rest.result, .alloc 1 :: header.events ++ rest.events, rest.block⟩

/-- A header loop that has come to its end is not in the header. -/
theorem not_headerSoFar {b0 : UInt8} {f : List UInt8} {v : ℕ} (hf : IsLengthField f v) :
    ¬ HeaderSoFar (b0 :: f) := by
  rintro (h | ⟨b0', ds, heq, hds⟩)
  · cases h
  obtain ⟨rfl, rfl⟩ := List.cons.inj heq
  obtain ⟨d, hd, hstop⟩ := hf.exists_stop
  have := hds d hd
  omega

section Call

variable {env : RecvEnv} {script₀ script : List TcpRecv} {stream₀ rest vs : List UInt8} {k : ℕ}
  {byteRecv : ℤ}

/-- With its first block a call begins at the first place of the header loop. -/
theorem mqttRecvTraced_granted (hmalloc : env.malloc 0) :
    mqttRecvTraced env script₀ stream₀ byteRecv
      = callTrace env
          (mqttRecvHeaderTraced env script₀ (headerAt env 0 [] stream₀ byteRecv) 2) := by
  have hstart : headerAt env 0 [] stream₀ byteRecv
      = ⟨Buffer.alloc mqttDefaultRecvBufLen, 0, env.clock 0, 1, 1, stream₀, byteRecv⟩ := by
    simp [headerAt, Buffer.alloc_eq_filled, headerAllocs]
  rw [hstart]
  unfold mqttRecvTraced
  simp only [hmalloc, if_true]
  rfl

theorem mqttRecvTraced_refused (hmalloc : ¬ env.malloc 0) :
    mqttRecvTraced env script₀ stream₀ byteRecv
      = ⟨.returned (RecvState.fail ⟨[], 0, env.clock 0, 0, 1, stream₀, byteRecv⟩ errTr50Malloc
          script₀), [], none⟩ := if_neg hmalloc

/-- What the call does is what it has done before a place, and what it does from there… -/
theorem HeaderPrefix.call_sofar {events : List RecvEvent}
    (hfront : HeaderPrefix env script₀ stream₀ byteRecv k vs script rest events)
    (h : HeaderReached env script₀ stream₀ k vs script rest) (sofar : HeaderSoFar vs) :
    mqttRecvTraced env script₀ stream₀ byteRecv
      = callTrace env ((mqttRecvHeaderTraced env script (headerAt env k vs rest byteRecv)
          (headerReadLen vs)).after events) := by
  rw [mqttRecvTraced_granted h.malloc, hfront.goesOn sofar]

/-- …or what it does behind the header. -/
theorem HeaderPrefix.call_complete {events : List RecvEvent} {b0 : UInt8} {f : List UInt8} {v : ℕ}
    (hfront : HeaderPrefix env script₀ stream₀ byteRecv k (b0 :: f) script rest events)
    (h : HeaderReached env script₀ stream₀ k (b0 :: f) script rest) (hf : IsLengthField f v) :
    mqttRecvTraced env script₀ stream₀ byteRecv
      = callTrace env ⟨.done (headerAt env k (b0 :: f) rest byteRecv) script, events⟩ := by
  rw [mqttRecvTraced_granted h.malloc, hfront.ends (not_headerSoFar hf)]

/-- What the header loop has done the call has done. -/
theorem mem_callTrace {header : LoopTrace} {ev : RecvEvent} (h : ev ∈ header.events) :
    ev ∈ (callTrace env header).events := by
  unfold callTrace
  split
  · exact List.mem_cons_of_mem _ h
  · exact List.mem_append_left _ (List.mem_cons_of_mem _ h)

end Call

/-! ## How long the socket is asked to wait -/

/-- A body: the header is complete, with room for the body behind it. -/
structure BodyAsks (env : RecvEnv) (script₀ : List TcpRecv) (stream₀ : List UInt8) (k : ℕ)
    (b0 : UInt8) (f : List UInt8) (v : ℕ) (script : List TcpRecv) (rest : List UInt8) : Prop where
  reached : HeaderReached env script₀ stream₀ k (b0 :: f) script rest
  field : IsLengthField f v
  digits : f.length ≤ 4
  body : 0 < v
  room : env.Grants (b0 :: f).length v

section Waits

variable {env : RecvEnv} {script₀ script : List TcpRecv} {stream₀ rest : List UInt8} {k : ℕ}
  {b0 : UInt8} {f : List UInt8} {v : ℕ} {byteRecv t : ℤ}

theorem growth_recv_notMem (n len : ℕ) (t : ℤ) : .recv t ∉ growth n len := by
  unfold growth
  split_ifs <;> simp

/-- Behind a header the socket is asked where there is a body, and room for it. -/
theorem HeaderReached.recv_mem_rest
    (h : HeaderReached env script₀ stream₀ k (b0 :: f) script rest) (hf : IsLengthField f v) :
    .recv t ∈ (mqttRecvRestTraced env (headerAt env k (b0 :: f) rest byteRecv) script).events
      ↔ BodyAsks env script₀ stream₀ k b0 f v script rest ∧ t = toInt32 (bodyWait env k) := by
  by_cases h4 : f.length ≤ 4
  swap
  · rw [rest_malformed hf (by omega)]
    simp only [List.mem_singleton, reduceCtorEq, false_iff, not_and]
    exact fun hbody => absurd hbody.digits h4
  by_cases room : env.Grants (b0 :: f).length v
  swap
  · rw [rest_refused hf h4 room]
    simp only [List.not_mem_nil, false_iff, not_and]
    exact fun hbody => absurd hbody.room room
  have hevents : ∀ body : LoopTrace, (bodyTrace env (growth (b0 :: f).length v) body).events
      = growth (b0 :: f).length v ++ body.events := by
    rintro ⟨loop, events⟩
    cases loop <;> rfl
  rw [h.rest_granted hf h4 room, hevents, List.mem_append,
    or_iff_right (growth_recv_notMem _ _ t), recv_mem_mqttRecvBodyTraced]
  exact and_congr_left' ⟨fun hv => ⟨h, hf, h4, hv, room⟩, fun hbody => hbody.body⟩

/-- **What a call asks the socket for**: at each read of its header the time that is left, and at
every read of its body the time that was left before the first of them. -/
theorem recv_mem_mqttRecvTraced :
    .recv t ∈ (mqttRecvTraced env script₀ stream₀ byteRecv).events
      ↔ (∃ k vs script rest, HeaderAsks env script₀ stream₀ k vs script rest
          ∧ t = toInt32 (env.slack k))
        ∨ ∃ k b0 f v script rest, BodyAsks env script₀ stream₀ k b0 f v script rest
          ∧ t = toInt32 (bodyWait env k) := by
  constructor
  · intro ht
    by_cases hmalloc : env.malloc 0
    swap
    · rw [mqttRecvTraced_refused hmalloc] at ht
      cases ht
    obtain ⟨k, vs, script, rest, h, hend⟩ :=
      (@HeaderReached.start env script₀ stream₀ hmalloc).exists_end
    obtain ⟨events, hfront⟩ := h.traced byteRecv
    have hround : ∀ {evs : List RecvEvent}, .recv t ∈ (RecvEvent.alloc 1 :: (events ++ evs)) →
        .recv t ∈ events ∨ .recv t ∈ evs := by
      intro evs hmem
      simpa using hmem
    cases hend with
    | late sofar time =>
      rw [hfront.call_sofar h sofar, h.traced_late byteRecv time] at ht
      rcases hround ht with ht | ht
      · exact Or.inl (hfront.waits t ht)
      · simp at ht
    | refused sofar time room =>
      rw [hfront.call_sofar h sofar, h.traced_refused byteRecv time room] at ht
      rcases hround ht with ht | ht
      · exact Or.inl (hfront.waits t ht)
      · cases ht
    | waiting sofar time room none =>
      rw [hfront.call_sofar h sofar, h.traced_waiting byteRecv time room none] at ht
      rcases hround ht with ht | ht
      · exact Or.inl (hfront.waits t ht)
      · exact Or.inl ⟨k, vs, script, rest, ⟨h, sofar, time, room⟩, recv_mem_roundEvents ht⟩
    | failed sofar time room he script' hscript =>
      subst hscript
      rw [hfront.call_sofar h sofar, h.traced_failed byteRecv time room] at ht
      rcases hround ht with ht | ht
      · exact Or.inl (hfront.waits t ht)
      · have hmem : .recv t ∈ roundEvents env k vs := by simpa using ht
        exact Or.inl ⟨k, vs, _, rest, ⟨h, sofar, time, room⟩, recv_mem_roundEvents hmem⟩
    | complete hvs hf =>
      subst hvs
      rw [hfront.call_complete h hf] at ht
      rcases hround ht with ht | ht
      · exact Or.inl (hfront.waits t ht)
      · exact Or.inr ⟨k, _, _, _, script, rest, (h.recv_mem_rest hf).mp ht⟩
  · rintro (⟨k, vs, script, rest, hasks, rfl⟩ | ⟨k, b0, f, v, script, rest, hasks, rfl⟩)
    · obtain ⟨events, hfront⟩ := hasks.reached.traced byteRecv
      rw [hfront.call_sofar hasks.reached hasks.sofar]
      exact mem_callTrace (List.mem_append_right _ (hasks.traced byteRecv))
    · obtain ⟨events, hfront⟩ := hasks.reached.traced byteRecv
      rw [hfront.call_complete hasks.reached hasks.field]
      exact List.mem_append_right _ ((hasks.reached.recv_mem_rest hasks.field).mpr ⟨hasks, rfl⟩)

end Waits

/-- **In time**: no check of the header finds the deadline just reached, and the body begins before
it. -/
structure RecvEnv.OnTime (env : RecvEnv) (script : List TcpRecv) (stream : List UInt8) :
    Prop where
  header {k : ℕ} {vs : List UInt8} {script' : List TcpRecv} {rest : List UInt8} :
    HeaderAsks env script stream k vs script' rest → env.slack k ≠ 0
  body {k : ℕ} {b0 : UInt8} {f : List UInt8} {v : ℕ} {script' : List TcpRecv}
    {rest : List UInt8} : BodyAsks env script stream k b0 f v script' rest → 0 < env.slack k

/-- Never is more time left than there was at the start. -/
theorem RecvEnv.slack_le {env : RecvEnv} (hclock : Monotone env.clock) (k : ℕ) :
    env.slack k ≤ env.timeout := by
  unfold RecvEnv.slack
  split_ifs
  · have := hclock (Nat.zero_le 1)
    omega
  · have := hclock (Nat.le_add_left 2 k)
    omega

/-- **A call asks the socket for a positive time, and for no more than its own, exactly where it is
in time.** -/
theorem mqttRecv_waits_iff {env : RecvEnv} (hpos : 0 < env.timeout) (hint : env.timeout < 2 ^ 31)
    (hclock : Monotone env.clock) (script : List TcpRecv) (stream : List UInt8) (byteRecv : ℤ) :
    (∀ t, .recv t ∈ (mqttRecvTraced env script stream byteRecv).events →
        1 ≤ t ∧ t ≤ env.timeout)
      ↔ env.OnTime script stream := by
  have hcast : ∀ {k}, 0 ≤ env.slack k → toInt32 (env.slack k) = env.slack k := by
    intro k h0
    have := env.slack_le hclock k
    exact toInt32_of_mem (by omega)
  constructor
  · intro hwaits
    refine ⟨fun {k vs script' rest} hasks hzero => ?_, fun {k b0 f v script' rest} hasks => ?_⟩
    · have := hwaits _ (recv_mem_mqttRecvTraced.mpr (Or.inl ⟨k, vs, script', rest, hasks, rfl⟩))
      rw [hcast hasks.time] at this
      omega
    · have := hwaits _ (recv_mem_mqttRecvTraced.mpr
        (Or.inr ⟨k, b0, f, v, script', rest, hasks, rfl⟩))
      by_contra hlate
      have hzero : bodyWait env k = 0 := by
        unfold bodyWait
        split_ifs <;> omega
      rw [hzero, toInt32_of_mem (by norm_num)] at this
      omega
  · rintro hontime t ht
    rcases recv_mem_mqttRecvTraced.mp ht with ⟨k, vs, script', rest, hasks, rfl⟩
      | ⟨k, b0, f, v, script', rest, hasks, rfl⟩
    · have hne := hontime.header hasks
      have htime := hasks.time
      rw [hcast htime]
      exact ⟨by omega, env.slack_le hclock k⟩
    · have hlt := hontime.body hasks
      rw [bodyWait, if_neg (by omega), hcast hlt.le]
      exact ⟨by omega, env.slack_le hclock k⟩

/-- A ping response under a clock that stands still. -/
theorem mqttRecv_waits_iff_pingresp :
    (∀ t, .recv t ∈ (mqttRecvTraced ⟨fun _ => true, fun _ => 5, 1000⟩ [.piece 1, .piece 1]
        [0xD0, 0x00] 7).events → 1 ≤ t ∧ t ≤ 1000)
      ↔ RecvEnv.OnTime ⟨fun _ => true, fun _ => 5, 1000⟩ [.piece 1, .piece 1] [0xD0, 0x00] :=
  mqttRecv_waits_iff (by norm_num) (by norm_num) monotone_const _ _ 7

/-- The clock reaches the deadline just at the second check; and it passes the deadline before a
body.  The socket is asked to wait for `0`, which is without limit. -/
theorem mqttRecv_waits_zero :
    (Monotone (fun i : ℕ => if i < 3 then (0 : ℤ) else 1000)
      ∧ .recv 0 ∈ (mqttRecvTraced ⟨fun _ => true, fun i => if i < 3 then 0 else 1000, 1000⟩
          [.piece 1] [0x30] 0).events)
    ∧ (Monotone (fun i : ℕ => if i < 3 then (0 : ℤ) else 5000)
      ∧ .recv 0 ∈ (mqttRecvTraced ⟨fun _ => true, fun i => if i < 3 then 0 else 5000, 1000⟩
          [.piece 2] [0x30, 0x02] 0).events)
    ∧ ∀ select recv : ℤ, tcpRecv true 2 0 ⟨select, recv⟩ = tcpRecv true 2 0 ⟨0, recv⟩ := by
  have hclock : ∀ late : ℤ, 0 ≤ late → Monotone (fun i : ℕ => if i < 3 then (0 : ℤ) else late) := by
    intro late hlate i j hij
    dsimp only
    split_ifs <;> omega
  exact ⟨⟨hclock 1000 (by norm_num), by decide +kernel⟩, ⟨hclock 5000 (by norm_num),
    by decide +kernel⟩, fun select recv => tcpRecv_zero true 2 select 0 recv⟩

end Tr50
