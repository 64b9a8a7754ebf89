import Tr50.Machinery.Offers
import Tr50.Util.Tcp

/-!
# Util/Send — what a send hands over

`_tcp_send` on a plain socket and `__ssl_send2` behind it on a secured one, with what each call of
the system is offered and what it takes.

`_tcp_send` returns `0` where the system has taken the buffer (`tcpSend_accepts`).  `__ssl_send2`
tells a failure by the one value `-1`: any other that is not positive is added to what has been
sent, and the loop goes on (`sslSend2_progresses_iff`).
-/

namespace Tr50

open Machinery

/-! ## `_tcp_send` -/

/-- The system's answers in one round of `_tcp_send`. -/
structure SysSend where
  select : ℤ
  send : ℤ
deriving DecidableEq, Repr

/-- `DTCPBUF` -/
def dtcpbuf : ℤ := 65535

/-- A send: the code, once it has returned, and what `send` has been offered. -/
structure SendRun where
  code : Option ℤ
  offers : List Offer

/-- What a loop offers that hands over at most `most` bytes at a time. -/
def offeredLen (most length currentSent : ℤ) : ℤ :=
  if length - currentSent > most then most else length - currentSent

/-- The loop of `_tcp_send`. -/
def tcpSendLoop (length timeout : ℤ) : List SysSend → (currentSent : ℤ) → SendRun
  | [], _ => ⟨none, []⟩
  | sys :: script, currentSent =>
    if timeout > 0 ∧ sys.select = 0 then ⟨some errTr50SockTimeout, []⟩
    else if timeout > 0 ∧ sys.select = -1 then ⟨some errTr50SockSelectFailed, []⟩
    else
      let offer := ⟨currentSent, offeredLen dtcpbuf length currentSent, sys.send⟩
      if sys.send + currentSent = length then ⟨some 0, [offer]⟩
      else if sys.send = -1 then ⟨some errTr50SockSendFailed, [offer]⟩
      else
        let run := tcpSendLoop length timeout script (currentSent + sys.send)
        ⟨run.code, offer :: run.offers⟩

/-- `_tcp_send` of a buffer. -/
def tcpSend (handle : Bool) (buffer : List UInt8) (timeout : ℤ) (script : List SysSend) :
    SendRun :=
  if handle = false then ⟨some errTr50Badhandle, []⟩
  else if timeout < -1 then ⟨some errTr50SockOther, []⟩
  else tcpSendLoop buffer.length timeout script 0

/-- What a loop does with the rest of `length` bytes, `n` of them sent. -/
structure SendsRest (length n : ℕ) (run : SendRun) : Prop where
  within : ∀ o ∈ run.offers, o.Within length ∧ o.offered ≤ dtcpbuf
  inOrder : InOrder n run.offers
  done : run.code = some 0 → n + total run.offers = length ∧ ∃ o ∈ run.offers, o.result ≠ -1
  /-- Where it has not succeeded bytes are left, or there are none and no send has succeeded. -/
  short : run.code ≠ some 0 → n + total run.offers < length
    ∨ length = 0 ∧ ∀ o ∈ run.offers, o.result = -1

section Loop

variable {length n : ℕ} {timeout : ℤ} {script : List SysSend}

theorem offeredLen_nonneg {most : ℤ} (hmost : 0 ≤ most) (h : n ≤ length) :
    0 ≤ offeredLen most length n ∧ n + offeredLen most length n ≤ length := by
  unfold offeredLen
  split_ifs <;> omega

/-- Bytes that are left are offered. -/
theorem offeredLen_pos {most : ℤ} (hmost : 0 < most) (h : n < length) :
    0 < offeredLen most length n := by
  unfold offeredLen
  split_ifs <;> omega

theorem offeredLen_le (most length currentSent : ℤ) :
    offeredLen most length currentSent ≤ most ∧
      offeredLen most length currentSent ≤ length - currentSent := by
  unfold offeredLen
  split_ifs <;> omega

/-- No offer has been made. -/
theorem sendsRest_nil {code : Option ℤ} (hcode : code ≠ some 0) (h : n < length ∨ length = 0) :
    SendsRest length n ⟨code, []⟩ where
  within := by simp
  inOrder := trivial
  done := fun hdone => absurd hdone hcode
  short := fun _ => h.imp (by simpa using ·) fun h0 => ⟨h0, by simp⟩

/-- A last offer has been made. -/
theorem sendsRest_one {o : Offer} {code : Option ℤ} (hstart : o.start = n)
    (hwithin : o.Within length ∧ o.offered ≤ dtcpbuf)
    (hdone : code = some 0 → n + o.count = length ∧ o.result ≠ -1)
    (hshort : code ≠ some 0 → n + o.count < length ∨ length = 0 ∧ o.result = -1) :
    SendsRest length n ⟨code, [o]⟩ where
  within := by simpa using hwithin
  inOrder := ⟨hstart, trivial⟩
  done := fun hcode => ⟨by simpa using (hdone hcode).1, o, by simp, (hdone hcode).2⟩
  short := fun hcode => (hshort hcode).imp (by simpa using ·) fun h0 => ⟨h0.1, by simpa using h0.2⟩

/-- An offer, and the rest behind it. -/
theorem SendsRest.cons {o : Offer} {run : SendRun} (h : SendsRest length (n + o.count) run)
    (hstart : o.start = n) (hwithin : o.Within length ∧ o.offered ≤ dtcpbuf)
    (hrest : n + o.count < length) : SendsRest length n ⟨run.code, o :: run.offers⟩ where
  within := by
    rintro o' (_ | ⟨_, ho'⟩)
    · exact hwithin
    · exact h.within o' ho'
  inOrder := ⟨hstart, h.inOrder⟩
  done := fun hcode => by
    obtain ⟨htotal, o', ho', hresult⟩ := h.done hcode
    refine ⟨?_, o', List.mem_cons_of_mem _ ho', hresult⟩
    rw [total_cons]
    omega
  short := fun hcode => Or.inl <| by
    have hlt := h.short hcode
    rw [total_cons]
    omega

/-- **The loop hands over the rest in order**, as far as the system takes it. -/
theorem sendsRest_loop (hrest : n < length ∨ n = 0 ∧ length = 0)
    (h : ∀ o ∈ (tcpSendLoop length timeout script n).offers, o.Answered) :
    SendsRest length n (tcpSendLoop length timeout script n)
      ∧ (length < n + script.length →
        (tcpSendLoop length timeout script n).code.isSome) := by
  induction script generalizing n with
  | nil =>
    refine ⟨sendsRest_nil (by simp) (hrest.imp_right And.right), fun hlt => ?_⟩
    rw [List.length_nil] at hlt
    omega
  | cons sys script ih =>
    obtain ⟨hnonneg, hle⟩ :=
      offeredLen_nonneg (by decide : (0 : ℤ) ≤ dtcpbuf) (by omega : n ≤ length)
    have hwithin : (Offer.mk n (offeredLen dtcpbuf length n) sys.send).Within length
        ∧ offeredLen dtcpbuf length n ≤ dtcpbuf :=
      ⟨⟨Int.natCast_nonneg n, hnonneg, hle⟩, (offeredLen_le _ _ _).1⟩
    have hcount : (Offer.mk n (offeredLen dtcpbuf length n) sys.send).count = sys.send.toNat := rfl
    rw [tcpSendLoop] at h ⊢
    split_ifs at h ⊢ with htimeout hselect hdone hfailed
    · exact ⟨sendsRest_nil (by simp; decide) (hrest.imp_right And.right), fun _ => rfl⟩
    · exact ⟨sendsRest_nil (by simp; decide) (hrest.imp_right And.right), fun _ => rfl⟩
    · -- the last piece
      have hsend : sys.send ≠ -1 := by omega
      exact ⟨sendsRest_one rfl hwithin (fun _ => ⟨by omega, hsend⟩) (fun hcode => absurd rfl hcode),
        fun _ => rfl⟩
    · -- `send` has failed
      exact ⟨sendsRest_one rfl hwithin (fun hcode => absurd hcode (by simp; decide))
        (fun _ => hrest.imp (by omega) fun h0 => ⟨h0.2, hfailed⟩), fun _ => rfl⟩
    · -- a piece that leaves a rest
      have hanswer : sys.send = -1 ∨ min 1 (offeredLen dtcpbuf length n) ≤ sys.send
          ∧ sys.send ≤ offeredLen dtcpbuf length n := h _ List.mem_cons_self
      have hpos : 0 < sys.send ∧ n + sys.send.toNat < length := by
        rcases hrest with hlt | ⟨rfl, rfl⟩
        · have hoffered := offeredLen_pos (by decide : (0 : ℤ) < dtcpbuf) hlt
          omega
        · omega
      have hnext : (n : ℤ) + sys.send = (n + sys.send.toNat : ℕ) := by omega
      rw [hnext] at h ⊢
      obtain ⟨hspec, hsome⟩ :=
        ih (Or.inl hpos.2) fun o ho => h o (List.mem_cons_of_mem _ ho)
      refine ⟨hspec.cons rfl hwithin hpos.2, fun hlt => hsome ?_⟩
      rw [List.length_cons] at hlt
      omega

end Loop

/-- What a send is for. -/
structure HandsOver (buffer : List UInt8) (run : SendRun) : Prop where
  /-- No byte outside the buffer is offered, and not too many at a time. -/
  within : ∀ o ∈ run.offers, o.Within buffer.length ∧ o.offered ≤ dtcpbuf
  /-- Each is offered in order, and taken once. -/
  inOrder : InOrder 0 run.offers
  /-- The code is `0` where the whole buffer has been taken, by a `send` that has succeeded. -/
  zero_iff : run.code = some 0
    ↔ accepted buffer run.offers = buffer ∧ ∃ o ∈ run.offers, o.result ≠ -1
  /-- On an error the bytes of the buffer, if it has any, have not all been taken. -/
  error : ∀ e, run.code = some e → e ≠ 0 → accepted buffer run.offers <+: buffer
    ∧ (accepted buffer run.offers = buffer → buffer = [])

theorem SendsRest.handsOver {buffer : List UInt8} {run : SendRun}
    (h : SendsRest buffer.length 0 run) : HandsOver buffer run := by
  have htotal : total run.offers ≤ buffer.length := by
    by_cases hcode : run.code = some 0
    · have hdone := h.done hcode
      omega
    · rcases h.short hcode with hlt | ⟨h0, hfailed⟩
      · omega
      · have hzero : total run.offers = 0 := by
          refine List.sum_eq_zero fun k hk => ?_
          obtain ⟨o, ho, rfl⟩ := List.mem_map.mp hk
          rw [Offer.count, hfailed o ho]
          rfl
        omega
  have heq := accepted_eq_iff h.inOrder htotal
  refine ⟨h.within, h.inOrder, ⟨fun hcode => ?_, fun ⟨hall, o, ho, hresult⟩ => ?_⟩,
    fun e he hne => ⟨accepted_begins h.inOrder, fun hall => ?_⟩⟩
  · obtain ⟨hlength, hsent⟩ := h.done hcode
    exact ⟨heq.mpr (by omega), hsent⟩
  · by_contra hcode
    have hlength := heq.mp hall
    rcases h.short hcode with hlt | ⟨-, hfailed⟩
    · omega
    · exact hresult (hfailed o ho)
  · have hcode : run.code ≠ some 0 := by
      rw [he]
      simpa using hne
    have hlength := heq.mp hall
    rcases h.short hcode with hlt | ⟨h0, -⟩
    · omega
    · exact List.length_eq_zero_iff.mp h0

section Send

variable {handle : Bool} {buffer : List UInt8} {timeout : ℤ} {script : List SysSend}

theorem sendsRest_tcpSend
    (h : ∀ o ∈ (tcpSend handle buffer timeout script).offers, o.Answered) :
    SendsRest buffer.length 0 (tcpSend handle buffer timeout script)
      ∧ (buffer.length < script.length →
        (tcpSend handle buffer timeout script).code.isSome) := by
  have hrest : 0 < buffer.length ∨ buffer.length = 0 := (Nat.eq_zero_or_pos _).symm
  unfold tcpSend at h ⊢
  split_ifs at h ⊢
  · exact ⟨sendsRest_nil (by decide) hrest, fun _ => rfl⟩
  · exact ⟨sendsRest_nil (by decide) hrest, fun _ => rfl⟩
  · obtain ⟨hspec, hsome⟩ := sendsRest_loop (n := 0) (hrest.imp_right fun h0 => ⟨rfl, h0⟩) h
    exact ⟨hspec, fun hlt => hsome (by omega)⟩

theorem handsOver_tcpSend
    (h : ∀ o ∈ (tcpSend handle buffer timeout script).offers, o.Answered) :
    HandsOver buffer (tcpSend handle buffer timeout script) :=
  (sendsRest_tcpSend h).1.handsOver

end Send

/-- **A send hands over its buffer**, and returns when the system has answered often enough. -/
theorem tcpSend_accepts (handle : Bool) (buffer : List UInt8) (timeout : ℤ) (script : List SysSend)
    (h : ∀ o ∈ (tcpSend handle buffer timeout script).offers, o.Answered) :
    HandsOver buffer (tcpSend handle buffer timeout script)
      ∧ (buffer.length < script.length →
        (tcpSend handle buffer timeout script).code.isSome) :=
  ⟨handsOver_tcpSend h, (sendsRest_tcpSend h).2⟩

theorem tcpSend_accepts_pieces :
    HandsOver [1, 2, 3] (tcpSend true [1, 2, 3] 5000 [⟨1, 2⟩, ⟨1, 1⟩, ⟨1, 1⟩, ⟨1, 1⟩])
      ∧ (tcpSend true [1, 2, 3] 5000 [⟨1, 2⟩, ⟨1, 1⟩, ⟨1, 1⟩, ⟨1, 1⟩]).code.isSome := by
  have h := tcpSend_accepts true [1, 2, 3] 5000 [⟨1, 2⟩, ⟨1, 1⟩, ⟨1, 1⟩, ⟨1, 1⟩] (by decide)
  exact ⟨h.1, h.2 (by decide)⟩

/-- **A send of nothing that fails** has left nothing out: its code is an error, and the whole
buffer has been taken. -/
theorem not_tcpSend_accepts :
    ¬ ∀ (buffer : List UInt8) (timeout : ℤ) (script : List SysSend),
      (∀ o ∈ (tcpSend true buffer timeout script).offers,
        o.result = -1 ∨ 1 ≤ o.result ∧ o.result ≤ o.offered) →
      ((tcpSend true buffer timeout script).code = some 0
        ↔ accepted buffer (tcpSend true buffer timeout script).offers = buffer) := by
  intro h
  have hcode := (h [] 5000 [⟨1, -1⟩] (by decide)).mpr rfl
  exact absurd hcode (by decide)

/-! ## `__ssl_send2` -/

/-- `SSL_BUFF` -/
def sslBuff : ℤ := 64512

/-- The `SSL_get_error` that the loop tries again on. -/
def sslRetry : ℤ := 0x1409F07F

/-- The answers to one turn of `__ssl_send2`: `select`, `SSL_write`, `SSL_get_error`. -/
structure SysSsl where
  select : ℤ
  write : ℤ
  error : ℤ
deriving DecidableEq, Repr

/-- Where the loop stands. -/
inductive SslState
  | sending (currentSent : ℤ)
  | returned (ret : ℤ)
deriving DecidableEq, Repr

/-- A turn of the loop of `__ssl_send2`, with `currentSent` bytes sent. -/
def sslSend2Turn (length timeout : ℤ) (sys : SysSsl) (currentSent : ℤ) : SslState :=
  if timeout > 0 ∧ sys.select = 0 then .returned errTr50SockTimeout
  else if timeout > 0 ∧ sys.select = -1 then .returned errTr50SockSelectFailed
  else if sys.write + currentSent = length then .returned 0
  else if sys.write = -1 then
    if sys.error = sslRetry then .sending currentSent else .returned errTr50SslGeneric
  else .sending (currentSent + sys.write)

/-- `__ssl_send2` of `length` bytes, after so many turns. -/
def sslSend2 (sslo : Bool) (length timeout : ℤ) (sys : ℕ → SysSsl) : ℕ → SslState
  | 0 =>
    if sslo = false then .returned errTr50Badhandle
    else if timeout < -1 then .returned errTr50SockOther
    else .sending 0
  | n + 1 =>
    match sslSend2 sslo length timeout sys n with
    | .sending currentSent => sslSend2Turn length timeout (sys n) currentSent
    | .returned ret => .returned ret

/-- `SSL_write` takes no more than it is offered, and every socket can be written to. -/
def SslAnswers (sslo : Bool) (length timeout : ℤ) (sys : ℕ → SysSsl) : Prop :=
  ∀ n currentSent, sslSend2 sslo length timeout sys n = .sending currentSent →
    (0 < timeout → 0 < (sys n).select) ∧ (sys n).write ≤ offeredLen sslBuff length currentSent

/-- A turn that is to be tried again. -/
def SysSsl.Retries (sys : SysSsl) : Prop := sys.write = -1 ∧ sys.error = sslRetry

/-- One that ends the loop. -/
def SysSsl.Fails (sys : SysSsl) : Prop := sys.write = -1 ∧ sys.error ≠ sslRetry

/-- A failure by another value. -/
def SysSsl.Stalls (sys : SysSsl) : Prop := sys.write = 0 ∨ sys.write < -1

/-- Every turn returns, is to be tried again, or hands over another byte. -/
def SslMoves (sslo : Bool) (length timeout : ℤ) (sys : ℕ → SysSsl) : Prop :=
  ∀ n currentSent, sslSend2 sslo length timeout sys n = .sending currentSent →
    (∃ ret, sslSend2 sslo length timeout sys (n + 1) = .returned ret) ∨ (sys n).Retries
      ∨ 0 ≤ currentSent ∧ 0 < (sys n).write ∧ currentSent + (sys n).write ≤ length

/-- Every turn moves on, and the loop ends unless it is tried again for ever. -/
structure SslProgresses (sslo : Bool) (length timeout : ℤ) (sys : ℕ → SysSsl) : Prop where
  turn : SslMoves sslo length timeout sys
  ends : (∃ m, ∀ n ≥ m, ¬ (sys n).Retries) →
    ∃ n ret, sslSend2 sslo length timeout sys n = .returned ret

/-- How much has been handed over where no turn has stalled. -/
def handedOver (sys : ℕ → SysSsl) (n : ℕ) : ℤ := ∑ k ∈ Finset.range n, max (sys k).write 0

/-- Before a turn stalls one has failed, or everything has been handed over. -/
def NeverStalls (length : ℤ) (sys : ℕ → SysSsl) : Prop :=
  ∀ n, (sys n).Stalls → (∃ k < n, (sys k).Fails) ∨ length ≤ handedOver sys n

section Ssl

variable {sslo : Bool} {length timeout : ℤ} {sys : ℕ → SysSsl}

@[simp] theorem handedOver_zero : handedOver sys 0 = 0 := rfl

theorem handedOver_succ (n : ℕ) :
    handedOver sys (n + 1) = handedOver sys n + max (sys n).write 0 :=
  Finset.sum_range_succ _ _

theorem handedOver_mono {m n : ℕ} (h : m ≤ n) : handedOver sys m ≤ handedOver sys n := by
  induction n, h using Nat.le_induction with
  | base => exact le_rfl
  | succ n _ ih =>
    rw [handedOver_succ]
    have hmax := le_max_right (sys n).write 0
    omega

/-- A loop that runs has been entered. -/
theorem sslSend2_entered {n : ℕ} {currentSent : ℤ}
    (h : sslSend2 sslo length timeout sys n = .sending currentSent) :
    sslo = true ∧ -1 ≤ timeout := by
  induction n generalizing currentSent with
  | zero =>
    rw [sslSend2] at h
    split_ifs at h with hsslo htimeout
    exact ⟨by simpa using hsslo, not_lt.mp htimeout⟩
  | succ n ih =>
    cases hn : sslSend2 sslo length timeout sys n with
    | sending before => exact ih hn
    | returned ret =>
      rw [sslSend2, hn] at h
      cases h

/-- **What a turn does**, with the socket ready. -/
theorem sslSend2_succ {n : ℕ} {currentSent : ℤ} (hsys : SslAnswers sslo length timeout sys)
    (h : sslSend2 sslo length timeout sys n = .sending currentSent) :
    sslSend2 sslo length timeout sys (n + 1)
      = if (sys n).write + currentSent = length then .returned 0
        else if (sys n).write = -1 then
          if (sys n).error = sslRetry then .sending currentSent else .returned errTr50SslGeneric
        else .sending (currentSent + (sys n).write) := by
  have hselect := (hsys n currentSent h).1
  rw [sslSend2, h]
  dsimp only
  rw [sslSend2Turn, if_neg fun hzero => (hselect hzero.1).ne' hzero.2, if_neg fun hminus => ?_]
  have hpos := hselect hminus.1
  omega

/-- A turn that has been reached without a failure, with bytes left, does not stall. -/
theorem NeverStalls.not_stalls (h : NeverStalls length sys) {n : ℕ}
    (hlt : handedOver sys n < length) (hfails : ∀ k < n, ¬ (sys k).Fails) : ¬ (sys n).Stalls := by
  intro hstall
  rcases h n hstall with ⟨k, hk, hfail⟩ | hall
  · exact hfails k hk hfail
  · omega

/-- The loop as far as no turn has stalled. -/
theorem sslSend2_of_neverStalls (hlength : 0 < length) (hsys : SslAnswers sslo length timeout sys)
    (h : NeverStalls length sys) {n : ℕ} {currentSent : ℤ}
    (hn : sslSend2 sslo length timeout sys n = .sending currentSent) :
    currentSent = handedOver sys n ∧ currentSent < length ∧ ∀ k < n, ¬ (sys k).Fails := by
  induction n generalizing currentSent with
  | zero =>
    rw [sslSend2] at hn
    split_ifs at hn
    obtain rfl := SslState.sending.inj hn
    exact ⟨rfl, hlength, fun k hk => absurd hk (Nat.not_lt_zero _)⟩
  | succ n ih =>
    cases hbefore : sslSend2 sslo length timeout sys n with
    | returned ret =>
      rw [sslSend2, hbefore] at hn
      cases hn
    | sending before =>
      obtain ⟨rfl, hlt, hfails⟩ := ih hbefore
      have hstall := h.not_stalls hlt hfails
      have hoffered := (hsys n _ hbefore).2.trans (offeredLen_le _ _ _).2
      rw [SysSsl.Stalls] at hstall
      rw [sslSend2_succ hsys hbefore] at hn
      rw [handedOver_succ, Nat.forall_lt_succ_right]
      split_ifs at hn with hdone hminus hretry
      · obtain rfl := SslState.sending.inj hn
        refine ⟨?_, hlt, hfails, fun hfail => hfail.2 hretry⟩
        rw [hminus, max_eq_right (by decide), add_zero]
      · obtain rfl := SslState.sending.inj hn
        refine ⟨?_, by omega, hfails, fun hfail => hminus hfail.1⟩
        rw [max_eq_left (by omega)]

/-- Every turn that is reached makes progress then. -/
theorem sslMoves_of_neverStalls (hlength : 0 < length) (hsys : SslAnswers sslo length timeout sys)
    (h : sslo = true → -1 ≤ timeout → NeverStalls length sys) :
    SslMoves sslo length timeout sys := by
  intro n currentSent hn
  obtain ⟨hsslo, htimeout⟩ := sslSend2_entered hn
  have hnever := h hsslo htimeout
  obtain ⟨rfl, hlt, hfails⟩ := sslSend2_of_neverStalls hlength hsys hnever hn
  have hstall := hnever.not_stalls hlt hfails
  have hoffered := (hsys n _ hn).2.trans (offeredLen_le _ _ _).2
  rw [SysSsl.Stalls] at hstall
  by_cases hminus : (sys n).write = -1
  · by_cases hretry : (sys n).error = sslRetry
    · exact Or.inr (Or.inl ⟨hminus, hretry⟩)
    · refine Or.inl ⟨errTr50SslGeneric, ?_⟩
      rw [sslSend2_succ hsys hn, if_neg (by omega), if_pos hminus, if_neg hretry]
  · have hnonneg := @handedOver_mono sys _ _ n.zero_le
    exact Or.inr (Or.inr ⟨hnonneg, by omega, by omega⟩)

/-- The loop as long as every turn makes progress. -/
theorem sslSend2_of_moves (hsslo : sslo = true) (htimeout : -1 ≤ timeout)
    (hsys : SslAnswers sslo length timeout sys) (h : SslMoves sslo length timeout sys)
    {n : ℕ} (hfails : ∀ k < n, ¬ (sys k).Fails) (hrest : handedOver sys n < length) :
    sslSend2 sslo length timeout sys n = .sending (handedOver sys n) := by
  induction n with
  | zero => rw [sslSend2, if_neg (by simp [hsslo]), if_neg (by omega), handedOver_zero]
  | succ n ih =>
    have hmono := @handedOver_mono sys _ _ (Nat.le_add_right n 1)
    have hn := ih (fun k hk => hfails k (by omega)) (by omega)
    have hturn := sslSend2_succ hsys hn
    have hmax := @handedOver_succ sys n
    rw [hturn]
    split_ifs with hdone hminus hretry
    · -- the buffer would have been handed over
      have hpos : handedOver sys n < length := by omega
      rw [max_eq_left (by omega)] at hmax
      omega
    · rw [hmax, hminus, max_eq_right (by decide), add_zero]
    · exact absurd ⟨hminus, hretry⟩ (hfails n n.lt_succ_self)
    · rcases h n _ hn with ⟨ret, hret⟩ | hretries | ⟨-, hpos, -⟩
      · rw [hturn, if_neg hdone, if_neg hminus] at hret
        cases hret
      · exact absurd hretries.1 hminus
      · rw [hmax, max_eq_left hpos.le]

/-- A turn that neither returns nor is to be tried again. -/
theorem sslSend2_advances (hsys : SslAnswers sslo length timeout sys)
    (h : SslMoves sslo length timeout sys) {n : ℕ} {currentSent : ℤ}
    (hn : sslSend2 sslo length timeout sys n = .sending currentSent)
    (hret : ∀ ret, sslSend2 sslo length timeout sys (n + 1) ≠ .returned ret)
    (hretry : ¬ (sys n).Retries) :
    0 ≤ currentSent ∧ currentSent < length ∧ ∃ next > currentSent,
      sslSend2 sslo length timeout sys (n + 1) = .sending next := by
  rcases h n currentSent hn with ⟨ret, hret'⟩ | hretry' | ⟨hnonneg, hpos, hle⟩
  · exact absurd hret' (hret ret)
  · exact absurd hretry' hretry
  · refine ⟨hnonneg, by omega, currentSent + (sys n).write, by omega, ?_⟩
    have hdone : ¬ (sys n).write + currentSent = length := fun hdone =>
      hret 0 ((sslSend2_succ hsys hn).trans (if_pos hdone))
    rw [sslSend2_succ hsys hn, if_neg hdone, if_neg (by omega)]

/-- Where turns make progress the loop ends, unless they are tried again for ever. -/
theorem sslSend2_ends (hsys : SslAnswers sslo length timeout sys)
    (h : SslMoves sslo length timeout sys) (hretries : ∃ m, ∀ n ≥ m, ¬ (sys n).Retries) :
    ∃ n ret, sslSend2 sslo length timeout sys n = .returned ret := by
  by_contra hnever
  push Not at hnever
  obtain ⟨m, hm⟩ := hretries
  obtain ⟨start, hstart⟩ : ∃ currentSent,
      sslSend2 sslo length timeout sys m = .sending currentSent := by
    cases hn : sslSend2 sslo length timeout sys m with
    | sending currentSent => exact ⟨currentSent, rfl⟩
    | returned ret => exact absurd hn (hnever m ret)
  have hturn : ∀ k currentSent, sslSend2 sslo length timeout sys (m + k) = .sending currentSent →
      0 ≤ currentSent ∧ currentSent < length ∧ ∃ next > currentSent,
        sslSend2 sslo length timeout sys (m + k + 1) = .sending next := fun k currentSent hn =>
    sslSend2_advances hsys h hn (hnever _) (hm _ (Nat.le_add_right m k))
  -- `k` turns behind the last retry at least `k` bytes have been sent
  have hgrows : ∀ k : ℕ, ∃ currentSent ≥ (k : ℤ),
      sslSend2 sslo length timeout sys (m + k) = .sending currentSent := by
    intro k
    induction k with
    | zero => exact ⟨start, (hturn 0 start hstart).1, hstart⟩
    | succ k ih =>
      obtain ⟨currentSent, hle, hcurrent⟩ := ih
      obtain ⟨-, -, next, hlt, hnext⟩ := hturn k _ hcurrent
      exact ⟨next, by push_cast; omega, hnext⟩
  obtain ⟨currentSent, hle, hcurrent⟩ := hgrows length.toNat
  have hlt := (hturn length.toNat _ hcurrent).2.1
  omega

/-- **The loop of `__ssl_send2` makes progress exactly where no turn stalls**: where `SSL_write`
tells a failure by `0`, as it does once the peer has shut the connection down, or by less than `-1`,
nothing more is handed over. -/
theorem sslSend2_progresses_iff (sslo : Bool) {length timeout : ℤ} {sys : ℕ → SysSsl}
    (hlength : 0 < length) (hsys : SslAnswers sslo length timeout sys) :
    SslProgresses sslo length timeout sys
      ↔ (sslo = true → -1 ≤ timeout → NeverStalls length sys) := by
  refine ⟨fun h hsslo htimeout n hstall => ?_, fun h => ?_⟩
  · by_contra hbefore
    push Not at hbefore
    obtain ⟨hfails, hrest⟩ := hbefore
    have hn := sslSend2_of_moves hsslo htimeout hsys h.turn hfails hrest
    rw [SysSsl.Stalls] at hstall
    rcases h.turn n _ hn with ⟨ret, hret⟩ | hretry | ⟨-, hpos, -⟩
    · rw [sslSend2_succ hsys hn, if_neg (by omega), if_neg (by omega)] at hret
      cases hret
    · have hminus := hretry.1
      omega
    · omega
  · have hmoves := sslMoves_of_neverStalls hlength hsys h
    exact ⟨hmoves, sslSend2_ends hsys hmoves⟩

end Ssl

/-- `SSL_write` takes the whole buffer. -/
theorem sslAnswers_whole : SslAnswers true 3 5000 fun _ => ⟨1, 3, 0⟩ := by
  intro n currentSent hn
  have hreturned : ∀ n, sslSend2 true 3 5000 (fun _ => ⟨1, 3, 0⟩) (n + 1) = .returned 0 := by
    intro n
    induction n with
    | zero => rfl
    | succ n ih => rw [sslSend2, ih]
  cases n with
  | zero =>
    obtain rfl := SslState.sending.inj hn
    exact ⟨fun _ => Int.one_pos, by decide⟩
  | succ n =>
    rw [hreturned n] at hn
    cases hn

theorem sslSend2_progresses_iff_whole :
    SslProgresses true 3 5000 (fun _ => ⟨1, 3, 0⟩)
      ↔ (true = true → (-1 : ℤ) ≤ 5000 → NeverStalls 3 fun _ => ⟨1, 3, 0⟩) :=
  sslSend2_progresses_iff true (by decide) sslAnswers_whole

/-- Once the peer has shut the connection down the loop goes on for ever. -/
theorem sslSend2_shutdown (n : ℕ) :
    sslSend2 true 1 5000 (fun _ => ⟨1, 0, 6⟩) n = .sending 0 := by
  induction n with
  | zero => rfl
  | succ n ih =>
    rw [sslSend2, ih]
    rfl

theorem not_sslSend2_progresses :
    ¬ ∀ (length timeout : ℤ) (sys : ℕ → SysSsl), 0 < length →
      SslAnswers true length timeout sys → SslProgresses true length timeout sys := by
  intro h
  have hsys : SslAnswers true 1 5000 fun _ => ⟨1, 0, 6⟩ := by
    intro n currentSent hn
    obtain rfl := SslState.sending.inj ((sslSend2_shutdown n).symm.trans hn)
    exact ⟨fun _ => Int.one_pos, (by decide : (0 : ℤ) ≤ offeredLen sslBuff 1 0)⟩
  obtain ⟨n, ret, hret⟩ := (h 1 5000 _ (by decide) hsys).ends
    ⟨0, fun n _ hretry => absurd hretry.1 (by decide)⟩
  rw [sslSend2_shutdown n] at hret
  cases hret

end Tr50
