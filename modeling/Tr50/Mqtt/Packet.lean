import Tr50.Mqtt.Header
import Tr50.Mqtt.Recv

/-!
# Mqtt/Packet — what a receive call does to the stream

A packet is a type byte, a length field of at most four digits and as many body bytes as it says;
packets are self-delimiting (`IsPacket.unique`).  `mqttRecv_outcome` says once what a call can do —
hand over the packet at the front of the stream, give up before its end, fail with a socket error —
and everything about receiving follows from it.
-/

namespace Tr50

open Machinery

/-! ## Packets -/

/-- A whole packet. -/
def IsPacket (p : List UInt8) : Prop :=
  ∃ b0 f body, p = b0 :: (f ++ body) ∧ IsLengthField f body.length ∧ f.length ≤ 4

/-- **Packets are self-delimiting.** -/
theorem IsPacket.unique {p q r s : List UInt8} (hp : IsPacket p) (hq : IsPacket q)
    (heq : p ++ r = q ++ s) : p = q ∧ r = s := by
  obtain ⟨b0, f, body, rfl, hf, -⟩ := hp
  obtain ⟨b0', f', body', rfl, hf', -⟩ := hq
  rw [List.cons_append, List.cons_append, List.append_assoc, List.append_assoc] at heq
  obtain ⟨rfl, htail⟩ := List.cons.inj heq
  obtain ⟨rfl, hlen, hbody⟩ := hf.unique hf' htail
  obtain ⟨rfl, rfl⟩ := List.append_inj hbody hlen
  exact ⟨rfl, rfl⟩

/-- No packet has been completed yet. -/
def NoPacket (vs : List UInt8) : Prop := ∀ p, IsPacket p → ¬ p <+: vs

/-- Digits that all carry the continuation bit do not complete a packet. -/
theorem noPacket_continues {b0 : UInt8} {ds : List UInt8} (h : ∀ d ∈ ds, 128 ≤ d.toNat) :
    NoPacket (b0 :: ds) := by
  rintro p ⟨b0', f, body, rfl, hf, -⟩ ⟨rest, hrest⟩
  rw [List.cons_append, List.append_assoc] at hrest
  obtain ⟨-, htail⟩ := List.cons.inj hrest
  obtain ⟨d, hd, hstop⟩ := hf.exists_stop
  have := h d (htail ▸ List.mem_append_left _ hd)
  omega

/-- …and neither does a header with part of its body. -/
theorem noPacket_body {b0 : UInt8} {f part : List UInt8} {v : ℕ} (hf : IsLengthField f v)
    (h : part.length < v) : NoPacket (b0 :: (f ++ part)) := by
  rintro p ⟨b0', f', body, rfl, hf', -⟩ ⟨rest, hrest⟩
  rw [List.cons_append, List.append_assoc] at hrest
  obtain ⟨-, htail⟩ := List.cons.inj hrest
  obtain ⟨rfl, rfl, rfl⟩ := hf'.unique hf htail
  rw [List.length_append] at h
  omega

/-- Continuation digits closed by a stopping one are a length field. -/
theorem exists_isLengthField {ds : List UInt8} {d : UInt8} (hds : ∀ d ∈ ds, 128 ≤ d.toNat)
    (hd : d.toNat < 128) : ∃ v, IsLengthField (ds ++ [d]) v := by
  induction ds with
  | nil => exact ⟨_, .last hd⟩
  | cons c ds ih =>
    obtain ⟨v, hv⟩ := ih fun x hx => hds x (List.mem_cons_of_mem _ hx)
    exact ⟨_, .more (hds c List.mem_cons_self) hv⟩

/-! ## What a run of pieces takes -/

/-- The pieces `used` take `vs` off the stream, each of them at least one byte. -/
structure Took (stream : List UInt8) (used : List TcpRecv) (vs rest : List UInt8) : Prop where
  pieces : ∀ ev ∈ used, ∃ n, ev = .piece n
  eq : stream = vs ++ rest
  le : used.length ≤ vs.length
  nil : used = [] → vs = []

namespace Took

variable {stream mid rest vs ws : List UInt8} {used used' : List TcpRecv}

theorem refl (stream : List UInt8) : Took stream [] [] stream :=
  ⟨by simp, rfl, le_rfl, fun _ => rfl⟩

theorem single {n : ℕ} (h : vs ≠ []) : Took (vs ++ rest) [.piece n] vs rest :=
  ⟨by simp, rfl, List.length_pos_of_ne_nil h, by simp⟩

theorem trans (h : Took stream used vs mid) (h' : Took mid used' ws rest) :
    Took stream (used ++ used') (vs ++ ws) rest where
  pieces := by
    intro ev hev
    rcases List.mem_append.mp hev with hev | hev
    · exact h.pieces ev hev
    · exact h'.pieces ev hev
  eq := by rw [h.eq, h'.eq, List.append_assoc]
  le := by
    have h1 := h.le
    have h2 := h'.le
    rw [List.length_append, List.length_append]
    omega
  nil := by
    intro hnil
    obtain ⟨h1, h2⟩ := List.append_eq_nil_iff.mp hnil
    rw [h.nil h1, h'.nil h2]
    rfl

end Took

/-! ## The buffer -/

section Buffer

variable (env : RecvEnv) {bs : List UInt8} {m : ℕ} (start : ℤ) (a t : ℕ) (stream : List UInt8)
  (byteRecv : ℤ)

/-- A resize makes room, or there is no memory. -/
theorem resize_filled (h : bs.length ≤ m) (k : ℕ) :
    (RecvState.resize env ⟨Buffer.filled bs m, bs.length, start, a, t, stream, byteRecv⟩ k = none
      ∧ ∃ i, env.malloc i = false)
    ∨ ∃ m' a', bs.length + k ≤ m' ∧
      RecvState.resize env ⟨Buffer.filled bs m, bs.length, start, a, t, stream, byteRecv⟩ k
        = some ⟨Buffer.filled bs m', bs.length, start, a', t, stream, byteRecv⟩ := by
  simp only [RecvState.resize, Buffer.length_filled h]
  split_ifs with h1 h2
  · refine Or.inr ⟨bs.length + k, a + 1, le_rfl, ?_⟩
    rw [Buffer.filled_realloc h (by omega)]
  · exact Or.inl ⟨rfl, a, by simpa using h2⟩
  · exact Or.inr ⟨m, a, by omega, rfl⟩

/-- **A piece that fits goes to the edge of the buffer.** -/
theorem accept_filled {stream : List UInt8} {k : ℕ} (n : ℕ) (hroom : bs.length + k ≤ m)
    (hk : 0 < k) (hne : stream ≠ []) :
    ∃ vs rest, vs ≠ [] ∧ vs.length ≤ k ∧ vs.length = pieceLen n k stream.length
      ∧ stream = vs ++ rest
      ∧ RecvState.accept ⟨Buffer.filled bs m, bs.length, start, a, t, stream, byteRecv⟩ k n
        = some ⟨Buffer.filled (bs ++ vs) m, (bs ++ vs).length, start, a, t, rest,
            byteRecv + vs.length⟩ := by
  have hpos := List.length_pos_of_ne_nil hne
  obtain ⟨len, hlen⟩ : ∃ len, len = pieceLen n k stream.length := ⟨_, rfl⟩
  have hbounds : 1 ≤ len ∧ len ≤ k ∧ len ≤ stream.length := by
    rw [hlen, pieceLen]
    omega
  have htake : (stream.take len).length = len := by
    rw [List.length_take]
    omega
  have hcopy := @Buffer.filled_memcpy m bs (stream.take len) (by rw [htake]; omega)
  refine ⟨stream.take len, stream.drop len, ?_, by omega, by omega,
    (List.take_append_drop _ _).symm, ?_⟩
  · rw [← List.length_pos_iff_ne_nil]
    omega
  · simp only [RecvState.accept, ← hlen, hcopy, List.length_append, htake]
    rfl

theorem lastByte_filled {d : UInt8} :
    RecvState.lastByte ⟨Buffer.filled (bs ++ [d]) m, (bs ++ [d]).length, start, a, t, stream,
      byteRecv⟩ = some d := by
  simp [RecvState.lastByte, Buffer.filled]

end Buffer

/-! ## The loops -/

/-- A check of the header loop finds the timeout exceeded: the first one counts from the call, the
later ones from the first byte. -/
def RecvEnv.Late (env : RecvEnv) : Prop :=
  env.clock 0 + env.timeout < env.clock 1 ∨ ∃ i ≥ 3, env.clock 2 + env.timeout < env.clock i

/-- The allocator refuses a request. -/
def RecvEnv.Refuses (env : RecvEnv) : Prop := ∃ i, env.malloc i = false

/-- Leaving a call before its packet is complete: the clock or the allocator gives up on it, or the
socket does. -/
inductive RecvExit (env : RecvEnv) (script : List TcpRecv) (stream : List UInt8) (byteRecv : ℤ)
    (r : RecvReturn) : Prop
  | gaveUp (used : List TcpRecv) {vs : List UInt8} (hscript : script = used ++ r.script)
      (took : Took stream used vs r.stream) (hbytes : r.byteRecv = byteRecv + vs.length)
      (why : (r.ret = errTr50Timeout ∧ env.Late) ∨ (r.ret = errTr50Malloc ∧ env.Refuses))
  | socket (used : List TcpRecv) {vs : List UInt8} {e : ℤ} (he : e < 0)
      (hscript : script = used ++ .failed e he :: r.script)
      (took : Took stream used vs r.stream) (hbytes : r.byteRecv = byteRecv + vs.length)
      (hret : r.ret = e)

/-- An exit after some pieces is an exit of the whole. -/
theorem RecvExit.prepend {env : RecvEnv} {script used : List TcpRecv} {stream mid vs : List UInt8}
    {byteRecv : ℤ} {r : RecvReturn} (took : Took stream used vs mid)
    (h : RecvExit env script mid (byteRecv + vs.length) r) :
    RecvExit env (used ++ script) stream byteRecv r := by
  cases h with
  | @gaveUp used' ws hscript took' hbytes why =>
    refine .gaveUp (used ++ used') (by rw [hscript, List.append_assoc])
      (took.trans took') ?_ why
    rw [hbytes, List.length_append]
    push_cast
    ring
  | @socket used' ws e he hscript took' hbytes hret =>
    refine .socket (used ++ used') he (by rw [hscript, List.append_assoc])
      (took.trans took') ?_ hret
    rw [hbytes, List.length_append]
    push_cast
    ring

/-- What the body loop does, asked for `k` bytes behind `bs`. -/
inductive BodyOutcome (env : RecvEnv) (script : List TcpRecv) (stream : List UInt8) (byteRecv : ℤ)
    (bs : List UInt8) (m k : ℕ) (start : ℤ) (a t : ℕ) : RecvLoop → Prop
  | waiting {used : List TcpRecv} {vs rest : List UInt8} (took : Took stream used vs rest)
      (ends : used = script ∨ rest = []) (hlt : vs.length < k) :
      BodyOutcome env script stream byteRecv bs m k start a t (.exit .waiting)
  | exit {r : RecvReturn} (h : RecvExit env script stream byteRecv r) :
      BodyOutcome env script stream byteRecv bs m k start a t (.exit (.returned r))
  | done {used script' : List TcpRecv} {vs rest : List UInt8} (hscript : script = used ++ script')
      (took : Took stream used vs rest) (hlen : vs.length = k) :
      BodyOutcome env script stream byteRecv bs m k start a t
        (.done ⟨Buffer.filled (bs ++ vs) m, (bs ++ vs).length, start, a, t, rest,
          byteRecv + vs.length⟩ script')

/-- Pieces taken before are pieces of the whole. -/
theorem BodyOutcome.prepend {env : RecvEnv} {script used : List TcpRecv}
    {stream mid bs vs : List UInt8} {byteRecv : ℤ} {m k : ℕ} {start : ℤ} {a t : ℕ} {l : RecvLoop}
    (took : Took stream used vs mid) (hle : vs.length ≤ k)
    (h : BodyOutcome env script mid (byteRecv + vs.length) (bs ++ vs) m (k - vs.length) start a t
      l) :
    BodyOutcome env (used ++ script) stream byteRecv bs m k start a t l := by
  cases h with
  | @waiting used' ws rest took' ends hlt =>
    refine .waiting (took.trans took') ?_ (by rw [List.length_append]; omega)
    exact ends.imp_left fun h => by rw [h]
  | exit h => exact .exit (h.prepend took)
  | @done used' script' ws rest hscript took' hlen =>
    have hdone := @BodyOutcome.done env (used ++ script) stream byteRecv bs m k start a t
      (used ++ used') script' (vs ++ ws) rest (by rw [hscript, List.append_assoc])
      (took.trans took') (by rw [List.length_append]; omega)
    rw [List.append_assoc, add_assoc, ← Nat.cast_add, ← List.length_append]
    exact hdone

/-- **The body loop takes its bytes**, unless the socket stops it. -/
theorem mqttRecvBody_outcome (env : RecvEnv) {m : ℕ} (start : ℤ) (a t : ℕ)
    (script : List TcpRecv) :
    ∀ (bs stream : List UInt8) (byteRecv : ℤ) (k : ℕ), bs.length + k ≤ m →
      BodyOutcome env script stream byteRecv bs m k start a t
        (mqttRecvBody script ⟨Buffer.filled bs m, bs.length, start, a, t, stream, byteRecv⟩ k) := by
  induction script with
  | nil =>
    intro bs stream byteRecv k hroom
    cases k with
    | zero =>
      have hdone := @BodyOutcome.done env [] stream byteRecv bs m 0 start a t [] [] [] stream rfl
        (Took.refl stream) rfl
      simpa [mqttRecvBody] using hdone
    | succ k => exact .waiting (Took.refl stream) (Or.inl rfl) (Nat.succ_pos k)
  | cons ev script ih =>
    intro bs stream byteRecv k hroom
    cases k with
    | zero =>
      have hdone := @BodyOutcome.done env (ev :: script) stream byteRecv bs m 0 start a t []
        (ev :: script) [] stream rfl (Took.refl stream) rfl
      simpa [mqttRecvBody] using hdone
    | succ k =>
      cases ev with
      | failed e he =>
        exact .exit (.socket [] he rfl (Took.refl stream) (by simp
          [RecvState.fail]) rfl)
      | piece n =>
        by_cases hs : stream = []
        · rw [mqttRecvBody, if_pos hs]
          exact .waiting (Took.refl stream) (Or.inr hs) (Nat.succ_pos k)
        · obtain ⟨vs, rest, hvs, hle, hlen, rfl, hacc⟩ :=
            accept_filled start a t byteRecv n hroom (Nat.succ_pos k) hs
          have hnext := ih (bs ++ vs) rest (byteRecv + vs.length) (k + 1 - vs.length)
            (by rw [List.length_append]; omega)
          have hstep : mqttRecvBody (.piece n :: script)
              ⟨Buffer.filled bs m, bs.length, start, a, t, vs ++ rest, byteRecv⟩ (k + 1)
              = mqttRecvBody script ⟨Buffer.filled (bs ++ vs) m, (bs ++ vs).length, start, a, t,
                  rest, byteRecv + vs.length⟩ (k + 1 - vs.length) := by
            rw [mqttRecvBody, if_neg hs]
            simp only [hacc, ← hlen]
          rw [hstep]
          exact hnext.prepend (Took.single hvs) hle

/-- The header read so far: a type byte and continuation digits. -/
def HeaderSoFar (bs : List UInt8) : Prop :=
  bs = [] ∨ ∃ b0 ds, bs = b0 :: ds ∧ ∀ d ∈ ds, 128 ≤ d.toNat

theorem HeaderSoFar.noPacket {bs : List UInt8} (h : HeaderSoFar bs) : NoPacket bs := by
  rcases h with rfl | ⟨b0, ds, rfl, hds⟩
  · rintro p ⟨b0, f, body, rfl, -, -⟩ hp
    simpa using hp.length_le
  · exact noPacket_continues hds

/-- One round of the header loop leaves it with the type byte alone, or with one digit more. -/
theorem HeaderSoFar.grow {bs vs : List UInt8} (h : HeaderSoFar bs) (hvs : vs ≠ [])
    (hle : vs.length ≤ if bs = [] then 2 else 1) :
    (∃ b0, bs ++ vs = [b0])
      ∨ ∃ b0 ds d, bs ++ vs = b0 :: (ds ++ [d]) ∧ ∀ d ∈ ds, 128 ≤ d.toNat := by
  rcases h with rfl | ⟨b0, ds, rfl, hds⟩
  · match vs, hvs, hle with
    | [b0], _, _ => exact Or.inl ⟨b0, rfl⟩
    | [b0, d], _, _ => exact Or.inr ⟨b0, [], d, rfl, by simp⟩
  · match vs, hvs, hle with
    | [d], _, _ => exact Or.inr ⟨b0, ds, d, rfl, hds⟩

/-- What the header loop does, entered with `bs` in the buffer. -/
inductive HeaderOutcome (env : RecvEnv) (script : List TcpRecv) (stream : List UInt8)
    (byteRecv : ℤ) (bs : List UInt8) : RecvLoop → Prop
  | waiting {used : List TcpRecv} {vs rest : List UInt8} (took : Took stream used vs rest)
      (ends : used = script ∨ rest = []) (sofar : HeaderSoFar (bs ++ vs)) :
      HeaderOutcome env script stream byteRecv bs (.exit .waiting)
  | exit {r : RecvReturn} (h : RecvExit env script stream byteRecv r) :
      HeaderOutcome env script stream byteRecv bs (.exit (.returned r))
  | header (used : List TcpRecv) {script' : List TcpRecv} {vs rest ds : List UInt8} {b0 d : UInt8}
      {m : ℕ} {start : ℤ} {a t : ℕ} (hscript : script = used ++ script')
      (took : Took stream used vs rest)
      (hbs : bs ++ vs = b0 :: (ds ++ [d])) (hds : ∀ d ∈ ds, 128 ≤ d.toNat) (hd : d.toNat < 128)
      (hm : (bs ++ vs).length ≤ m) :
      HeaderOutcome env script stream byteRecv bs
        (.done ⟨Buffer.filled (bs ++ vs) m, (bs ++ vs).length, start, a, t, rest,
          byteRecv + vs.length⟩ script')

theorem HeaderOutcome.prepend {env : RecvEnv} {script used : List TcpRecv}
    {stream mid bs vs : List UInt8} {byteRecv : ℤ} {l : RecvLoop} (took : Took stream used vs mid)
    (h : HeaderOutcome env script mid (byteRecv + vs.length) (bs ++ vs) l) :
    HeaderOutcome env (used ++ script) stream byteRecv bs l := by
  cases h with
  | @waiting used' ws rest took' ends sofar =>
    refine .waiting (took.trans took') (ends.imp_left fun h => by rw [h]) ?_
    rwa [← List.append_assoc]
  | exit h => exact .exit (h.prepend took)
  | @header used' script' ws rest ds b0 d m start a t hscript took' hbs hds hd hm =>
    rw [List.append_assoc] at hbs hm ⊢
    rw [add_assoc, ← Nat.cast_add, ← List.length_append]
    exact .header _ (by rw [hscript, List.append_assoc]) (took.trans took') hbs hds hd hm

/-- Where the clock stands: the timeout counts from the call until the first byte, and from that
byte on. -/
structure HeaderClock (env : RecvEnv) (bs : List UInt8) (start : ℤ) (t : ℕ) : Prop where
  before : bs = [] → start = env.clock 0 ∧ t = 1
  after : bs ≠ [] → start = env.clock 2 ∧ 3 ≤ t

/-- The first byte starts the clock. -/
theorem HeaderClock.started {env : RecvEnv} {bs : List UInt8} {start : ℤ} {t : ℕ}
    (hclock : HeaderClock env bs start t) (buffer : Buffer) (a : ℕ) (stream : List UInt8)
    (byteRecv : ℤ) : ∃ start' t',
      (if bs.length = 0 then
        { RecvState.tick ⟨buffer, bs.length, start, a, t + 1, stream, byteRecv⟩
          with startingTime := env.clock (t + 1) }
      else ⟨buffer, bs.length, start, a, t + 1, stream, byteRecv⟩)
        = (⟨buffer, bs.length, start', a, t', stream, byteRecv⟩ : RecvState)
      ∧ start' = env.clock 2 ∧ 3 ≤ t' := by
  by_cases hnil : bs = []
  · obtain ⟨-, rfl⟩ := hclock.before hnil
    exact ⟨env.clock 2, 3, by rw [hnil]; rfl, rfl, le_rfl⟩
  · obtain ⟨hstart, ht⟩ := hclock.after hnil
    refine ⟨start, t + 1, if_neg fun h => hnil (List.length_eq_zero_iff.mp h), hstart, ?_⟩
    omega

/-- A round either finds the timeout exceeded or no memory, or it has room for what it asks. -/
theorem mqttRecvEnter_filled {env : RecvEnv} {bs : List UInt8} {m : ℕ} {start : ℤ} (a : ℕ) {t : ℕ}
    (stream : List UInt8) (byteRecv : ℤ) (h : bs.length ≤ m) (hclock : HeaderClock env bs start t)
    (k : ℕ) (script : List TcpRecv) :
    (∃ r, RecvExit env script stream byteRecv r ∧
      mqttRecvEnter env ⟨Buffer.filled bs m, bs.length, start, a, t, stream, byteRecv⟩ k script
        = .error r)
    ∨ ∃ m' a', bs.length + k ≤ m' ∧
      mqttRecvEnter env ⟨Buffer.filled bs m, bs.length, start, a, t, stream, byteRecv⟩ k script
        = .ok ⟨Buffer.filled bs m', bs.length, start, a', t + 1, stream, byteRecv⟩ := by
  by_cases hlate : start + env.timeout - env.clock t < 0
  · refine Or.inl ⟨RecvState.fail ⟨Buffer.filled bs m, bs.length, start, a, t + 1, stream,
        byteRecv⟩ errTr50Timeout script, .gaveUp [] rfl (Took.refl stream)
        (by simp [RecvState.fail]) (Or.inl ⟨rfl, ?_⟩), ?_⟩
    swap
    · simp only [mqttRecvEnter, if_pos hlate, RecvState.tick]
    by_cases hbs : bs = []
    · obtain ⟨rfl, rfl⟩ := hclock.before hbs
      exact Or.inl (by simpa using hlate)
    · obtain ⟨rfl, ht⟩ := hclock.after hbs
      exact Or.inr ⟨t, ht, by simpa using hlate⟩
  · rcases resize_filled env start a (t + 1) stream byteRecv h k with
      ⟨hnone, hrefuse⟩ | ⟨m', a', hroom, hsome⟩
    · refine Or.inl ⟨RecvState.fail ⟨Buffer.filled bs m, bs.length, start, a, t + 1, stream,
        byteRecv⟩ errTr50Malloc script, .gaveUp [] rfl (Took.refl stream)
        (by simp [RecvState.fail]) (Or.inr ⟨rfl, hrefuse⟩), ?_⟩
      simp only [mqttRecvEnter, if_neg hlate, RecvState.tick, hnone]
    · refine Or.inr ⟨m', a', hroom, ?_⟩
      simp only [mqttRecvEnter, if_neg hlate, RecvState.tick, hsome]

/-- **The header loop takes a type byte and a length field**, unless the clock, the allocator or
the socket stops it. -/
theorem mqttRecvHeader_outcome (env : RecvEnv) (script : List TcpRecv) :
    ∀ (bs : List UInt8) (m : ℕ) (start : ℤ) (a t : ℕ) (stream : List UInt8) (byteRecv : ℤ),
      bs.length ≤ m → HeaderSoFar bs → HeaderClock env bs start t →
      HeaderOutcome env script stream byteRecv bs
        (mqttRecvHeader env script ⟨Buffer.filled bs m, bs.length, start, a, t, stream, byteRecv⟩
          (if bs = [] then 2 else 1)) := by
  induction script with
  | nil =>
    intro bs m start a t stream byteRecv hm hbs hclock
    obtain ⟨r, hexit, henter⟩ | ⟨m', a', -, henter⟩ := mqttRecvEnter_filled a stream byteRecv hm
      hclock (if bs = [] then 2 else 1) []
    · simp only [mqttRecvHeader, henter]
      exact .exit hexit
    · simp only [mqttRecvHeader, henter]
      exact .waiting (Took.refl stream) (Or.inl rfl) (by rwa [List.append_nil])
  | cons ev script ih =>
    intro bs m start a t stream byteRecv hm hbs hclock
    obtain ⟨r, hexit, henter⟩ | ⟨m', a', hroom, henter⟩ := mqttRecvEnter_filled a stream byteRecv
      hm hclock (if bs = [] then 2 else 1) (ev :: script)
    · simp only [mqttRecvHeader, henter]
      exact .exit hexit
    cases ev with
    | failed e he =>
      have hret : (if bs.length > 0 ∧ e = errTr50Timeout then errTr50Timeout else e) = e := by
        split_ifs with h
        · exact h.2.symm
        · rfl
      simp only [mqttRecvHeader, henter, hret]
      exact .exit (.socket [] he rfl (Took.refl stream) (by simp
        [RecvState.fail]) rfl)
    | piece n =>
      by_cases hs : stream = []
      · simp only [mqttRecvHeader, henter, if_pos hs]
        exact .waiting (Took.refl stream) (Or.inr hs) (by rwa [List.append_nil])
      obtain ⟨start', t', hst, hclock'⟩ := hclock.started (Buffer.filled bs m') a' stream byteRecv
      obtain ⟨vs, rest, hvs, hle, -, rfl, hacc⟩ :=
        accept_filled start' a' t' byteRecv n hroom (by split_ifs <;> omega) hs
      have took : Took (vs ++ rest) [.piece n] vs rest := Took.single hvs
      have hne : bs ++ vs ≠ [] := by simp [hvs]
      have hm' : (bs ++ vs).length ≤ m' := by rw [List.length_append]; omega
      have hnext : ∀ h : HeaderSoFar (bs ++ vs), _ := fun h =>
        (ih (bs ++ vs) m' start' a' t' rest (byteRecv + vs.length) hm' h
          ⟨fun h => absurd h hne, fun _ => hclock'⟩).prepend took
      rw [if_neg hne] at hnext
      simp only [mqttRecvHeader, henter, if_neg hs, hst, hacc]
      rcases hbs.grow hvs hle with ⟨b0, hb⟩ | ⟨b0, ds, d, hb, hds⟩
      · have hsofar : HeaderSoFar (bs ++ vs) := Or.inr ⟨b0, [], hb, by simp⟩
        rw [if_neg (by rw [hb]; simp)]
        exact hnext hsofar
      · have hlen : (bs ++ vs).length > 1 := by rw [hb]; simp
        have hlast : RecvState.lastByte ⟨Buffer.filled (bs ++ vs) m', (bs ++ vs).length, start', a',
            t', rest, byteRecv + vs.length⟩ = some d := by
          rw [hb, ← List.cons_append]
          exact lastByte_filled start' a' t' rest _
        rw [if_pos hlen, hlast]
        by_cases hd : d &&& 128 = 0
        · rw [and_128_eq_zero_iff] at hd
          simp only [(and_128_eq_zero_iff d).mpr hd, if_true]
          exact .header [.piece n] rfl took hb hds hd hm'
        · have hcont : 128 ≤ d.toNat := (and_128_ne_zero_iff d).mp hd
          have hsofar : HeaderSoFar (bs ++ vs) := by
            refine Or.inr ⟨b0, ds ++ [d], hb, fun x hx => ?_⟩
            rcases List.mem_append.mp hx with hx | hx
            · exact hds x hx
            · rwa [List.mem_singleton.mp hx]
          simp only [if_neg hd]
          exact hnext hsofar

/-! ## The call -/

/-- What a call of `mqtt_recv` does. -/
inductive RecvOutcome (env : RecvEnv) (script : List TcpRecv) (stream : List UInt8)
    (byteRecv : ℤ) : RecvResult → Prop
  | waiting {used : List TcpRecv} {vs rest : List UInt8} (took : Took stream used vs rest)
      (ends : used = script ∨ rest = []) (hno : NoPacket vs) :
      RecvOutcome env script stream byteRecv .waiting
  | exit {r : RecvReturn} (h : RecvExit env script stream byteRecv r) :
      RecvOutcome env script stream byteRecv (.returned r)
  /-- More than four digits: no packet is at the front of the stream. -/
  | malformed {r : RecvReturn} {used : List TcpRecv} {vs : List UInt8}
      (hscript : script = used ++ r.script) (took : Took stream used vs r.stream)
      (hbytes : r.byteRecv = byteRecv + vs.length) (hret : r.ret = errTr50MqttRecvDecodeHdrLen)
      (hno : NoPacket stream) :
      RecvOutcome env script stream byteRecv (.returned r)
  | packet {r : RecvReturn} (p : List UInt8) (used : List TcpRecv)
      (hscript : script = used ++ r.script) (took : Took stream used p r.stream)
      (hbytes : r.byteRecv = byteRecv + p.length) (hret : r.ret = 0) (hp : IsPacket p)
      (hlen : r.len = p.length) (hdata : r.data.take r.len = p.map some) :
      RecvOutcome env script stream byteRecv (.returned r)

/-- Behind a fixed header the call takes the body. -/
theorem mqttRecvRest_outcome {env : RecvEnv} {b0 : UInt8} {f : List UInt8} {v m : ℕ}
    (hf : IsLengthField f v) (hm : (b0 :: f).length ≤ m) (start : ℤ) (a t : ℕ)
    (script : List TcpRecv) (rest : List UInt8) (byteRecv : ℤ) {used : List TcpRecv}
    {stream : List UInt8} (took : Took stream used (b0 :: f) rest) :
    RecvOutcome env (used ++ script) stream byteRecv
      (mqttRecvRest env ⟨Buffer.filled (b0 :: f) m, (b0 :: f).length, start, a, t, rest,
        byteRecv + (b0 :: f).length⟩ script) := by
  by_cases h4 : f.length ≤ 4
  swap
  · have hdec := mqttDecodeHeaderLength_long hf (by omega) ((b0 :: f).length)
      (by rw [List.length_cons]; omega) []
    rw [List.append_nil] at hdec
    simp only [mqttRecvRest, Buffer.written_drop_one, hdec]
    refine .malformed rfl took rfl rfl ?_
    rintro p ⟨b0', f', body, rfl, hf', h4'⟩ ⟨tail, htail⟩
    rw [took.eq, List.cons_append, List.cons_append, List.append_assoc] at htail
    obtain ⟨rfl, -, -⟩ := hf'.unique hf (List.cons.inj htail).2
    exact h4 h4'
  have hdec := mqttDecodeHeaderLength_field hf h4 ((b0 :: f).length)
    (by rw [List.length_cons]; omega) []
  rw [List.append_nil] at hdec
  simp only [mqttRecvRest, Buffer.written_drop_one, hdec]
  rcases resize_filled env start a t rest (byteRecv + (b0 :: f).length) hm v with
    ⟨hnone, hrefuse⟩ | ⟨m', a', hroom, hsome⟩
  · rw [hnone]
    exact .exit (.gaveUp _ rfl took rfl (Or.inr ⟨rfl, hrefuse⟩))
  rw [hsome]
  have hbody := mqttRecvBody_outcome env start a' (t + 1) script (b0 :: f) rest
    (byteRecv + (b0 :: f).length) v hroom
  simp only [RecvState.tick, lt_irrefl, if_false]
  revert hbody
  generalize mqttRecvBody script _ v = l
  intro hbody
  cases hbody with
  | @waiting used' vs rest' took' ends hlt =>
    exact .waiting (took.trans took') (ends.imp_left fun h => by rw [h]) (noPacket_body hf hlt)
  | exit h => exact .exit (h.prepend took)
  | @done used' script' vs rest' hscript took' hlen =>
    refine .packet (b0 :: f ++ vs) (used ++ used') (by rw [hscript, List.append_assoc])
      (took.trans took') ?_ rfl ⟨b0, f, vs, rfl, by rwa [hlen], h4⟩ rfl (Buffer.take_filled _ _)
    rw [List.length_append]
    push_cast
    ring

/-- Without memory for the first buffer the call ends at once… -/
theorem mqttRecv_refused {env : RecvEnv} (hmalloc : ¬ env.malloc 0) (script : List TcpRecv)
    (stream : List UInt8) (byteRecv : ℤ) :
    mqttRecv env script stream byteRecv
      = .returned (RecvState.fail ⟨[], 0, env.clock 0, 0, 1, stream, byteRecv⟩ errTr50Malloc
          script) := by
  unfold mqttRecv
  exact if_neg hmalloc

section Header

variable {env : RecvEnv} {script : List TcpRecv} {stream : List UInt8} {byteRecv : ℤ}

/-- …with it the header loop ends the call… -/
theorem mqttRecv_exit (hmalloc : env.malloc 0) {r : RecvResult}
    (h : mqttRecvHeader env script
      ⟨Buffer.alloc mqttDefaultRecvBufLen, 0, env.clock 0, 1, 1, stream, byteRecv⟩ 2 = .exit r) :
    mqttRecv env script stream byteRecv = r := by
  simp only [mqttRecv, hmalloc, if_true, h]

/-- …or hands over to the rest of it. -/
theorem mqttRecv_done (hmalloc : env.malloc 0) {st : RecvState} {script' : List TcpRecv}
    (h : mqttRecvHeader env script
      ⟨Buffer.alloc mqttDefaultRecvBufLen, 0, env.clock 0, 1, 1, stream, byteRecv⟩ 2
        = .done st script') :
    mqttRecv env script stream byteRecv = mqttRecvRest env st script' := by
  simp only [mqttRecv, hmalloc, if_true, h]

end Header

/-- **A call hands over the packet at the front of the stream, or gives up before its end.** -/
theorem mqttRecv_outcome (env : RecvEnv) (script : List TcpRecv) (stream : List UInt8)
    (byteRecv : ℤ) :
    RecvOutcome env script stream byteRecv (mqttRecv env script stream byteRecv) := by
  by_cases hmalloc : env.malloc 0
  swap
  · rw [mqttRecv_refused hmalloc]
    exact .exit (.gaveUp [] rfl (Took.refl stream) (by simp [RecvState.fail])
      (Or.inr ⟨rfl, 0, by simpa using hmalloc⟩))
  have hheader := mqttRecvHeader_outcome env script [] mqttDefaultRecvBufLen (env.clock 0) 1 1
    stream byteRecv (Nat.zero_le _) (Or.inl rfl) ⟨fun _ => ⟨rfl, rfl⟩, fun h => absurd rfl h⟩
  rw [if_pos rfl, ← Buffer.alloc_eq_filled, List.length_nil] at hheader
  generalize hloop : mqttRecvHeader env script _ 2 = l at hheader
  cases hheader with
  | waiting took ends sofar =>
    rw [mqttRecv_exit hmalloc hloop]
    exact .waiting took ends sofar.noPacket
  | exit h =>
    rw [mqttRecv_exit hmalloc hloop]
    exact .exit h
  | @header used script' vs rest ds b0 d m start a t hscript took hbs hds hd hm =>
    rw [mqttRecv_done hmalloc hloop]
    rw [List.nil_append] at hbs hm
    subst hbs hscript
    obtain ⟨v, hf⟩ := exists_isLengthField hds hd
    exact mqttRecvRest_outcome hf hm start a t script' rest byteRecv took

/-- **A stream that starts with a packet gives that packet**, however the socket cuts it. -/
theorem mqttRecv_packet (env : RecvEnv) {script : List TcpRecv} {p : List UInt8}
    (rest : List UInt8) (byteRecv : ℤ) (hp : IsPacket p)
    (hpieces : ∀ ev ∈ script, ∃ n, ev = .piece n) (hlen : p.length ≤ script.length)
    (hmalloc : ∀ i, env.malloc i) (hfirst : env.clock 1 ≤ env.clock 0 + env.timeout)
    (hlater : ∀ i ≥ 3, env.clock i ≤ env.clock 2 + env.timeout) :
    ∃ r, mqttRecv env script (p ++ rest) byteRecv = .returned r ∧ r.ret = 0
      ∧ r.len = p.length ∧ r.data.take r.len = p.map some ∧ r.stream = rest
      ∧ r.byteRecv = byteRecv + p.length := by
  have hnotlate : ¬ env.Late := by
    rintro (h | ⟨i, hi, h⟩)
    · omega
    · have := hlater i hi
      omega
  have hnotrefused : ¬ env.Refuses := by
    rintro ⟨i, hi⟩
    simp [hmalloc i] at hi
  have hout := mqttRecv_outcome env script (p ++ rest) byteRecv
  revert hout
  generalize mqttRecv env script (p ++ rest) byteRecv = res
  intro hout
  cases hout with
  | @waiting used vs rest' took ends hno =>
    refine absurd ?_ (hno p hp)
    rcases ends with rfl | rfl
    · -- the script is longer than the packet
      have hle := took.le
      exact List.prefix_of_prefix_length_le ⟨rest, rfl⟩ ⟨rest', took.eq.symm⟩ (by omega)
    · have heq := took.eq
      rw [List.append_nil] at heq
      exact ⟨rest, heq⟩
  | exit h =>
    cases h with
    | gaveUp used hscript took hbytes why =>
      rcases why with ⟨-, h⟩ | ⟨-, h⟩
      · exact absurd h hnotlate
      · exact absurd h hnotrefused
    | @socket used vs e he hscript took hbytes hret =>
      obtain ⟨n, hn⟩ := hpieces (.failed e he) (by rw [hscript]; simp)
      cases hn
  | malformed hscript took hbytes hret hno => exact absurd ⟨rest, rfl⟩ (hno p hp)
  | @packet r used q hscript took hbytes hret hq hlen hdata =>
    obtain ⟨rfl, hrest⟩ := hp.unique hq took.eq
    exact ⟨r, rfl, hret, hlen, hdata, hrest.symm, hbytes⟩

/-- A PUBLISH, one byte at a time, with the next packet behind it. -/
theorem mqttRecv_packet_publish :
    ∃ r, mqttRecv ⟨fun _ => true, fun _ => 5, 1000⟩ (List.replicate 6 (.piece 1))
        ([0x30, 4, 0, 1, 97, 98] ++ [0xD0, 0x00]) 7 = .returned r
      ∧ r.ret = 0 ∧ r.len = [(0x30 : UInt8), 4, 0, 1, 97, 98].length
      ∧ r.data.take r.len = [0x30, 4, 0, 1, 97, 98].map some ∧ r.stream = [0xD0, 0x00]
      ∧ r.byteRecv = 7 + ([(0x30 : UInt8), 4, 0, 1, 97, 98].length : ℕ) :=
  mqttRecv_packet _ [0xD0, 0x00] 7
    ⟨0x30, [4], [0, 1, 97, 98], rfl, .last (by decide), by decide⟩ (by simp) (by decide)
    (fun _ => rfl) (by decide) (fun _ _ => (by norm_num : (5 : ℤ) ≤ 5 + 1000))

/-! ## Timeouts -/

/-- The part of the receive thread between two packets: whether the client is CONNECTED, the stream
of its socket, and what `_mqtt_async_handler_process` has been given. -/
structure Receiver where
  connected : Bool
  stream : List UInt8
  byteRecv : ℤ
  handed : List (List UInt8)
deriving DecidableEq

/-- One round of the receive loop; `none` while the call is still inside `_tcp_recv`. -/
def Receiver.receive (rx : Receiver) (env : RecvEnv) (script : List TcpRecv) : Option Receiver :=
  if rx.connected then
    match mqttRecv env script rx.stream rx.byteRecv with
    | .returned r =>
      let rx := { rx with stream := r.stream, byteRecv := r.byteRecv }
      if r.ret ≠ 0 then
        if r.ret ≠ errTr50TcpTimeout then some { rx with connected := false } else some rx
      else some { rx with handed := rx.handed ++ [(r.data.take r.len).reduceOption] }
    | _ => none
  else some rx

/-- The rounds of a run. -/
def Receiver.run : Receiver → List (RecvEnv × List TcpRecv) → Option Receiver
  | rx, [] => some rx
  | rx, call :: calls => (rx.receive call.1 call.2).bind fun rx => rx.run calls

section Timeout

variable {env : RecvEnv} {script : List TcpRecv} {stream : List UInt8} {byteRecv : ℤ}
  {r : RecvReturn}

theorem Took.timeout_notMem {used : List TcpRecv} {vs rest : List UInt8}
    (took : Took stream used vs rest) : TcpRecv.timeout ∉ used := by
  intro h
  obtain ⟨n, hn⟩ := took.pieces _ h
  cases hn

/-- **A timeout that comes first costs nothing.** -/
theorem mqttRecv_timeout (h : mqttRecv env script stream byteRecv = .returned r)
    (htail : TcpRecv.timeout ∉ script.tail) (hret : r.ret = errTr50TcpTimeout) :
    r.stream = stream := by
  have hout := mqttRecv_outcome env script stream byteRecv
  rw [h] at hout
  cases hout with
  | exit h =>
    cases h with
    | gaveUp used hscript took hbytes why =>
      rw [hret] at why
      exact absurd why (by rintro (⟨h, -⟩ | ⟨h, -⟩) <;> revert h <;> decide)
    | @socket used vs e he hscript took hbytes hret' =>
      have hnil : used = [] := by
        by_contra hne
        obtain ⟨ev, used, rfl⟩ := List.exists_cons_of_ne_nil hne
        refine htail ?_
        rw [hscript, List.cons_append, List.tail_cons]
        refine List.mem_append_right _ (List.mem_cons.mpr (Or.inl ?_))
        simp only [TcpRecv.timeout, ← hret, hret']
      have heq := took.eq
      rw [took.nil hnil] at heq
      exact heq.symm
  | malformed hscript took hbytes hret' hno =>
    rw [hret] at hret'
    exact absurd hret' (by decide)
  | packet p used hscript took hbytes hret' hp hlen hdata =>
    rw [hret] at hret'
    exact absurd hret' (by decide)

/-- …and one that comes later costs the bytes before it. -/
theorem mqttRecv_timeout_tail (h : mqttRecv env script stream byteRecv = .returned r)
    (hall : r.script = []) (htail : TcpRecv.timeout ∈ script.tail) :
    r.ret = errTr50TcpTimeout ∧ r.stream ≠ stream := by
  have hout := mqttRecv_outcome env script stream byteRecv
  rw [h] at hout
  have hnot : ∀ {used vs rest}, Took stream used vs rest → script = used ++ r.script → False := by
    intro used vs rest took hscript
    rw [hall, List.append_nil] at hscript
    exact took.timeout_notMem (List.mem_of_mem_tail (hscript ▸ htail))
  cases hout with
  | exit h =>
    cases h with
    | gaveUp used hscript took hbytes why => exact (hnot took hscript).elim
    | @socket used vs e he hscript took hbytes hret =>
      rw [hall] at hscript
      have hne : used ≠ [] := by
        rintro rfl
        simp [hscript] at htail
      have hlast : TcpRecv.timeout = .failed e he := by
        rw [hscript, List.tail_append_of_ne_nil hne] at htail
        rcases List.mem_append.mp htail with h | h
        · exact absurd (List.mem_of_mem_tail h) took.timeout_notMem
        · exact List.mem_singleton.mp h
      refine ⟨?_, fun heq => ?_⟩
      · rw [hret]
        exact (TcpRecv.failed.inj hlast).symm
      · have hle := took.le
        have hlen := congrArg List.length took.eq
        have hpos := List.length_pos_of_ne_nil hne
        rw [List.length_append, heq] at hlen
        omega
  | malformed hscript took hbytes hret hno => exact (hnot took hscript).elim
  | packet p used hscript took hbytes hret hp hlen hdata => exact (hnot took hscript).elim

/-- A call that returns `0` has taken the packet at the front of the stream. -/
theorem mqttRecv_eq_zero (h : mqttRecv env script stream byteRecv = .returned r)
    (hret : r.ret = 0) :
    ∃ p, IsPacket p ∧ r.data.take r.len = p.map some ∧ stream = p ++ r.stream := by
  have hout := mqttRecv_outcome env script stream byteRecv
  rw [h] at hout
  cases hout with
  | exit h =>
    cases h with
    | gaveUp used hscript took hbytes why =>
      rw [hret] at why
      exact absurd why (by rintro (⟨h, -⟩ | ⟨h, -⟩) <;> revert h <;> decide)
    | @socket used vs e he hscript took hbytes hret' =>
      rw [hret] at hret'
      omega
  | malformed hscript took hbytes hret' hno =>
    rw [hret] at hret'
    exact absurd hret' (by decide)
  | packet p used hscript took hbytes hret' hp hlen hdata => exact ⟨_, hp, hdata, took.eq⟩

end Timeout

/-- The packets handed over so far are whole packets of the stream, in order; while the client is
CONNECTED the rest of the stream is what its socket still has. -/
def Receiver.InStep (stream : List UInt8) (rx : Receiver) : Prop :=
  (∀ p ∈ rx.handed, IsPacket p)
    ∧ ∃ rest, stream = rx.handed.flatten ++ rest ∧ (rx.connected → rx.stream = rest)

/-- One round keeps in step, unless a timeout comes in the middle of a packet. -/
theorem Receiver.InStep.receive {stream : List UInt8} {rx rx' : Receiver} (h : rx.InStep stream)
    {env : RecvEnv} {script : List TcpRecv} (htail : TcpRecv.timeout ∉ script.tail)
    (hrx : rx.receive env script = some rx') : rx'.InStep stream := by
  obtain ⟨hpackets, rest, hstream, hrest⟩ := h
  unfold Receiver.receive at hrx
  split_ifs at hrx with hconn
  swap
  · obtain rfl := Option.some.inj hrx
    exact ⟨hpackets, rest, hstream, hrest⟩
  obtain rfl := hrest hconn
  cases hcall : mqttRecv env script rx.stream rx.byteRecv with
  | waiting => simp [hcall] at hrx
  | fault => simp [hcall] at hrx
  | returned r =>
    simp only [hcall] at hrx
    split_ifs at hrx with hret hto
    · obtain rfl := Option.some.inj hrx
      exact ⟨hpackets, rx.stream, hstream, by simp⟩
    · obtain rfl := Option.some.inj hrx
      exact ⟨hpackets, rx.stream, hstream,
        fun _ => mqttRecv_timeout hcall htail (not_not.mp hto)⟩
    · obtain rfl := Option.some.inj hrx
      obtain ⟨p, hp, hdata, htaken⟩ := mqttRecv_eq_zero hcall (not_not.mp hret)
      have hbytes : (r.data.take r.len).reduceOption = p := by
        rw [hdata]
        exact (List.filterMap_map).trans (by simp)
      refine ⟨?_, r.stream, ?_, fun _ => rfl⟩
      · intro q hq
        rcases List.mem_append.mp hq with hq | hq
        · exact hpackets q hq
        · rwa [List.mem_singleton.mp hq, hbytes]
      · rw [hstream, htaken, hbytes]
        simp

theorem Receiver.InStep.run {stream : List UInt8} :
    ∀ {calls : List (RecvEnv × List TcpRecv)} {rx rx' : Receiver}, rx.InStep stream →
      (∀ call ∈ calls, TcpRecv.timeout ∉ call.2.tail) → rx.run calls = some rx' →
      rx'.InStep stream
  | [], rx, rx', h, _, hrun => by
      obtain rfl := Option.some.inj hrun
      exact h
  | call :: calls, rx, rx', h, hcalls, hrun => by
      obtain ⟨mid, hmid, hrest⟩ := Option.bind_eq_some_iff.mp hrun
      exact (h.receive (hcalls call List.mem_cons_self) hmid).run
        (fun c hc => hcalls c (List.mem_cons_of_mem _ hc)) hrest

/-- **A timeout is harmless exactly where it is the call's first outcome**, and a receive loop all
of whose timeouts are hands over the packets of its stream. -/
theorem mqttRecv_timeout_iff (stream : List UInt8) (byteRecv : ℤ) :
    (∀ (env : RecvEnv) (script : List TcpRecv) (r : RecvReturn),
        mqttRecv env script stream byteRecv = .returned r → r.script = [] →
      ((r.ret = errTr50TcpTimeout → r.stream = stream) ↔ TcpRecv.timeout ∉ script.tail))
    ∧ ∀ (calls : List (RecvEnv × List TcpRecv)) (rx : Receiver),
        (∀ call ∈ calls, TcpRecv.timeout ∉ call.2.tail) →
      Receiver.run ⟨true, stream, byteRecv, []⟩ calls = some rx → rx.InStep stream := by
  constructor
  · intro env script r hcall hall
    constructor
    · intro hcosts htail
      obtain ⟨hret, hne⟩ := mqttRecv_timeout_tail hcall hall htail
      exact hne (hcosts hret)
    · exact fun htail hret => mqttRecv_timeout hcall htail hret
  · intro calls rx hcalls hrun
    exact Receiver.InStep.run ⟨by simp, stream, by simp, fun _ => rfl⟩ hcalls hrun

/-- A timeout as the first outcome, then a whole packet. -/
theorem mqttRecv_timeout_iff_first :
    (errTr50TcpTimeout = errTr50TcpTimeout → ([0xD0, 0x00] : List UInt8) = [0xD0, 0x00])
      ∧ Receiver.InStep [0xD0, 0x00] ⟨true, [], 2, [[0xD0, 0x00]]⟩ :=
  ⟨((mqttRecv_timeout_iff [0xD0, 0x00] 0).1 ⟨fun _ => true, fun _ => 5, 1000⟩ [TcpRecv.timeout]
      ⟨errTr50TcpTimeout, [], 0, [0xD0, 0x00], [], 0, none⟩ (by decide +kernel) rfl).mpr
      (by decide),
    (mqttRecv_timeout_iff [0xD0, 0x00] 0).2
      [(⟨fun _ => true, fun _ => 5, 1000⟩, [TcpRecv.timeout]),
        (⟨fun _ => true, fun _ => 5, 1000⟩, [.piece 2])] _ (by decide) (by decide +kernel)⟩

/-- A timeout behind the type byte loses it: the call reports a timeout, the client stays
CONNECTED, and the next call hands over two bytes that are not the packet of the stream. -/
theorem mqttRecv_timeout_desync :
    (∃ r, mqttRecv ⟨fun _ => true, fun _ => 5, 1000⟩ [.piece 1, TcpRecv.timeout]
        [0x30, 0x02, 0x00, 0x00] 0 = .returned r
      ∧ r.ret = errTr50TcpTimeout ∧ r.stream ≠ [0x30, 0x02, 0x00, 0x00])
    ∧ ∃ rx, Receiver.run ⟨true, [0x30, 0x02, 0x00, 0x00], 0, []⟩
        [(⟨fun _ => true, fun _ => 5, 1000⟩, [.piece 1, TcpRecv.timeout]),
          (⟨fun _ => true, fun _ => 5, 1000⟩, [.piece 1, .piece 1])] = some rx
      ∧ rx.connected ∧ rx.handed = [[0x02, 0x00]] ∧ ¬ rx.InStep [0x30, 0x02, 0x00, 0x00] := by
  refine ⟨⟨⟨errTr50TcpTimeout, [], 0, [0x02, 0x00, 0x00], [], 1, none⟩, by decide +kernel, rfl,
    by decide⟩, ⟨true, [0x00], 3, [[0x02, 0x00]]⟩, by decide +kernel, rfl, rfl, ?_⟩
  rintro ⟨-, rest, hrest, -⟩
  cases hrest

end Tr50
