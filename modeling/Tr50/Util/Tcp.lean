import Tr50.Util.Error

/-!
# Util/Tcp — the socket calls

`_tcp_recv` of `util/linux/linux.tcp.c` on a plain socket, over what the system answers to `select`
and `recv`.  Above this layer a receive is one of two things, a `TcpRecv`: a non-empty piece of the
stream, or an error code that costs no byte.
-/

namespace Tr50

/-! ## Receiving -/

/-- The system's answers to one `_tcp_recv`. -/
structure SysRecv where
  select : ℤ
  recv : ℤ
deriving DecidableEq, Repr

/-- `_tcp_recv` asked for `length` bytes: the code, and `*length` afterwards. -/
def tcpRecv (handle : Bool) (length : ℕ) (timeout : ℤ) (sys : SysRecv) : ℤ × ℕ :=
  if handle = false then (errTr50Badhandle, length)
  else if timeout < -1 then (errTr50SockBadTimeout, length)
  else if timeout > 0 ∧ sys.select = 0 then (errTr50SockTimeout, length)
  else if timeout > 0 ∧ sys.select = -1 then (errTr50SockSelectFailed, length)
  else if sys.recv = -1 then (errTr50SockRecvFailed, 0)
  else if sys.recv = 0 then (errTr50SockShutdown, 0)
  else (0, sys.recv.toNat)

/-- What a receive amounts to. -/
inductive TcpRecv
  /-- Bytes arrive; `n` is how many the system had at hand. -/
  | piece (n : ℕ)
  /-- An error, with no byte taken. -/
  | failed (e : ℤ) (h : e < 0)
deriving DecidableEq, Repr

/-- The socket layer's timeout. -/
def TcpRecv.timeout : TcpRecv := .failed errTr50TcpTimeout (by decide)

/-- How many bytes a `piece` hands over: at least one, at most what was asked for and is there. -/
def pieceLen (n asked available : ℕ) : ℕ := min (max n 1) (min asked available)

/-- **A receive is a piece or an error**, whatever the system answers within its contract. -/
theorem tcpRecv_outcome (handle : Bool) {length : ℕ} (timeout : ℤ) {sys : SysRecv}
    (hsys : -1 ≤ sys.recv ∧ sys.recv ≤ length) :
    (∃ n, tcpRecv handle length timeout sys = (0, n) ∧ n = pieceLen n length n)
      ∨ (tcpRecv handle length timeout sys).1 < 0 := by
  unfold tcpRecv
  split_ifs with h1 h2 h3 h4 h5 h6
  · exact Or.inr (by change errTr50Badhandle < 0; decide)
  · exact Or.inr (by change errTr50SockBadTimeout < 0; decide)
  · exact Or.inr (by change errTr50SockTimeout < 0; decide)
  · exact Or.inr (by change errTr50SockSelectFailed < 0; decide)
  · exact Or.inr (by change errTr50SockRecvFailed < 0; decide)
  · exact Or.inr (by change errTr50SockShutdown < 0; decide)
  · refine Or.inl ⟨_, rfl, ?_⟩
    rw [pieceLen]
    omega

/-- **A timeout of `0` is none**: the call goes on to its `recv`, whatever `select` would have
said. -/
theorem tcpRecv_zero (handle : Bool) (length : ℕ) (select select' recv : ℤ) :
    tcpRecv handle length 0 ⟨select, recv⟩ = tcpRecv handle length 0 ⟨select', recv⟩ := by
  simp [tcpRecv]

end Tr50
