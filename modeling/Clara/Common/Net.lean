import Mathlib.Logic.Function.Basic
import Clara.Lib.Bytes
import Clara.Lib.Prog

/-! `net.c` over an SCTP socket that keeps record boundaries. A record is a message, two
bytes of type and a payload, or raw data of a block; nothing in it tells which. -/
namespace Clara

open Conc

abbrev MessageType := UInt16

namespace Msg

def invalid : MessageType := 0x0000
def ack : MessageType := 0x0001
def nack : MessageType := 0x0002
def idle : MessageType := 0x0003
def ping : MessageType := 0x0004
def pong : MessageType := 0x0005
def allocateRequest : MessageType := 0x0020
def allocateResponse : MessageType := 0x0021
def executeRequest : MessageType := 0x0022
def executeResponse : MessageType := 0x0023
def fetchRequest : MessageType := 0x0024
def fetchResponse : MessageType := 0x0025
def mapatptrRequest : MessageType := 0x0028
def mapatptrResponse : MessageType := 0x0029
def memputStream : MessageType := 0x0030
def block : MessageType := 0x0040
def streamStart : MessageType := 0x0041
def streamEnd : MessageType := 0x0042
def openclPlatformInfo : MessageType := 0x0100
def openclDeviceInfo : MessageType := 0x0101
def openclPlatformId : MessageType := 0x0110
def openclDeviceId : MessageType := 0x0111
def mapping : MessageType := 0x0200

end Msg

/-- A record as its sender means it. -/
inductive Sent
  | msg (type : MessageType) (payload : Bytes)
  | data (bytes : Bytes)
  deriving DecidableEq

/-- The bytes of the record. -/
def Sent.record : Sent → Bytes
  | .msg type payload => Bytes.ofNat 2 type.toNat ++ payload
  | .data bytes => bytes

/-- What the next `sctp_recvmsg` on a socket will find. -/
inductive Incoming
  | record (bytes : Bytes)
  | notification (bytes : Bytes)
  | failure

structure Conn where
  inq : List Incoming
  sent : List Sent
  /-- Whether the next sends fail; those beyond the list succeed. -/
  sendFails : List Bool

def Conn.fresh : Conn := ⟨[], [], []⟩

abbrev Net (Sd : Type) := Sd → Conn

/-- The assertions of `net.c`, `block.c`, `stream.c` and `rpc_client.c`, and the accesses they do
not check. -/
inductive NetFault
  | notificationTooLong
  | recordTooShort
  | blockBufferTooSmall
  | blockNotSent
  | blockTooLong
  | blockNotReceived
  | unexpectedMessage
  | fetchResponseSize
  | overflow
  | uninitialised
  | nullPointer
  deriving DecidableEq

inductive NetOp (Sd : Type)
  | sendmsg (sd : Sd) (type : MessageType) (msg : Bytes)
  | send (sd : Sd) (msg : Bytes)
  | recv (sd : Sd) (len : ℕ)
  | recvmsg (sd : Sd) (len : ℕ)
  | fail (f : NetFault)
  /-- The fuel of a loop is used up. -/
  | spin

/-- The outcome of `clara_recvmsg`: a notification leaves `*ptype` as it was. -/
inductive Received
  | failed
  | message (type : MessageType) (msg : Bytes)
  | notification (msg : Bytes)

/-- What `clara_recvmsg` stored, when it did not return `-1`. -/
def Received.stored : Received → Option Bytes
  | .failed => none
  | .message _ msg | .notification msg => some msg

namespace Incoming

/-- What `clara_recvmsg` stores of it in a buffer of `len` bytes. -/
def stored (len : ℕ) : Incoming → Option Bytes
  | .record b => if 2 ≤ b.length ∧ b.length ≤ 2 + len then some (b.drop 2) else none
  | .notification b => if b.length ≤ len then some b else none
  | .failure => none

end Incoming

namespace NetOp
variable {Sd : Type}

/-- For the sends the number of bytes sent, `none` for `-1`. -/
abbrev Res : NetOp Sd → Type
  | .sendmsg _ _ _ => Option ℕ
  | .send _ _ => Option ℕ
  | .recv _ _ => Option Bytes
  | .recvmsg _ _ => Received
  | .fail _ => Empty
  | .spin => Empty

end NetOp

abbrev NetProg (Sd α : Type) := Prog (NetOp Sd) NetOp.Res α

section
variable {Sd : Type}

def NetProg.perform (o : NetOp Sd) : NetProg Sd o.Res := Prog.perform o

def claraSendmsg (sd : Sd) (type : MessageType) (msg : Bytes) : NetProg Sd (Option ℕ) :=
  NetProg.perform (.sendmsg sd type msg)

def claraSend (sd : Sd) (msg : Bytes) : NetProg Sd (Option ℕ) :=
  NetProg.perform (.send sd msg)

def claraRecv (sd : Sd) (len : ℕ) : NetProg Sd (Option Bytes) :=
  NetProg.perform (.recv sd len)

def claraRecvmsg (sd : Sd) (len : ℕ) : NetProg Sd Received :=
  NetProg.perform (.recvmsg sd len)

def NetProg.fail {α : Type} (f : NetFault) : NetProg Sd α := .op (.fail f) nofun

def NetProg.spin {α : Type} : NetProg Sd α := .op .spin nofun

def NetProg.assert (b : Bool) (f : NetFault) : NetProg Sd Unit :=
  if b then pure () else .fail f

end

namespace Net
variable {Sd : Type} [DecidableEq Sd]

/-- `sctp_sendmsg`: a record is sent whole or not at all. -/
def post (net : Net Sd) (sd : Sd) (r : Sent) (len : ℕ) :
    Outcome (Net Sd) NetFault (Option ℕ) :=
  let c := net sd
  match c.sendFails with
  | true :: fs => .done (Function.update net sd { c with sendFails := fs }) none
  | fs => .done (Function.update net sd ⟨c.inq, c.sent ++ [r], fs.tail⟩) (some len)

/-- `sctp_recvmsg` into a buffer of `len` bytes, of which the caller looks at the flags. What
does not fit stays for the next call, and the missing `MSG_EOR` is reported as `-1`. -/
def take (net : Net Sd) (sd : Sd) (len : ℕ) : Outcome (Net Sd) NetFault Incoming :=
  let c := net sd
  let rest (q : List Incoming) : Net Sd := Function.update net sd { c with inq := q }
  match c.inq with
  | [] => .blocked
  | .failure :: q => .done (rest q) .failure
  | .record b :: q =>
    if b.length ≤ len then .done (rest q) (.record b)
    else .done (rest (.record (b.drop len) :: q)) .failure
  | .notification b :: q =>
    if b.length ≤ len then .done (rest q) (.notification b)
    else .done (rest (.notification (b.drop len) :: q)) .failure

/-- The effect of one call. In `clara_recvmsg` the type the caller expects is compared with
the caller's own variable before the record's type is stored there, so it decides nothing. -/
def exec : (o : NetOp Sd) → Net Sd → Outcome (Net Sd) NetFault o.Res
  | .sendmsg sd type msg, net => net.post sd (.msg type msg) msg.length
  | .send sd msg, net => net.post sd (.data msg) msg.length
  | .recv sd len, net => (net.take sd len).bind fun net i =>
    match i with
    | .failure => .done net none
    | .record b => .done net (some b)
    | .notification b => .done net (some b)
  | .recvmsg sd len, net => (net.take sd (2 + len)).bind fun net i =>
    match i with
    | .failure => .done net .failed
    | .notification b => if b.length ≤ len then .done net (.notification b)
      else .fault .notificationTooLong
    | .record b => if 2 ≤ b.length then
        .done net (.message (UInt16.ofNat (Bytes.toNat (b.take 2))) (b.drop 2))
      else .fault .recordTooShort
  | .fail f, _ => .fault f
  | .spin, _ => .blocked

/-- Runs a program that only uses the network. -/
def run {α : Type} (p : NetProg Sd α) (net : Net Sd) : Outcome (Net Sd) NetFault α :=
  p.run (fun _ : Unit => exec) () net

/-- The records went out on `sd`. -/
def push (net : Net Sd) (sd : Sd) (rs : List Sent) : Net Sd :=
  Function.update net sd { net sd with sent := (net sd).sent ++ rs }

/-- The records waiting on `sd` are those of `q`. -/
def withInq (net : Net Sd) (sd : Sd) (q : List Incoming) : Net Sd :=
  Function.update net sd { net sd with inq := q }

/-- Records as they arrive at the other end. -/
def incoming (rs : List Sent) : List Incoming := rs.map fun r => .record r.record

@[simp] theorem incoming_nil : incoming [] = [] := rfl

theorem incoming_cons (r : Sent) (rs : List Sent) :
    incoming (r :: rs) = .record r.record :: incoming rs := rfl

theorem incoming_append (rs rs' : List Sent) :
    incoming (rs ++ rs') = incoming rs ++ incoming rs' := List.map_append

section
variable (net : Net Sd) (sd : Sd)

@[simp] theorem push_push (rs rs' : List Sent) :
    (net.push sd rs).push sd rs' = net.push sd (rs ++ rs') := by
  simp [push]

@[simp] theorem push_nil : net.push sd [] = net := by simp [push]

@[simp] theorem push_sent (rs : List Sent) :
    (net.push sd rs sd).sent = (net sd).sent ++ rs := by simp [push]

@[simp] theorem push_sendFails (rs : List Sent) :
    (net.push sd rs sd).sendFails = (net sd).sendFails := by simp [push]

@[simp] theorem withInq_withInq (q q' : List Incoming) :
    (net.withInq sd q).withInq sd q' = net.withInq sd q' := by simp [withInq]

@[simp] theorem withInq_inq (q : List Incoming) : (net.withInq sd q sd).inq = q := by
  simp [withInq]

theorem push_apply (rs : List Sent) :
    net.push sd rs sd = { net sd with sent := (net sd).sent ++ rs } := Function.update_self ..

theorem withInq_apply (q : List Incoming) : net.withInq sd q sd = { net sd with inq := q } :=
  Function.update_self ..

theorem push_of_ne {sd' : Sd} (h : sd' ≠ sd) (rs : List Sent) : net.push sd rs sd' = net sd' :=
  Function.update_of_ne h ..

theorem withInq_of_ne {sd' : Sd} (h : sd' ≠ sd) (q : List Incoming) :
    net.withInq sd q sd' = net sd' := Function.update_of_ne h ..

theorem withInq_push {sd' : Sd} (h : sd' ≠ sd) (q : List Incoming) (rs : List Sent) :
    (net.push sd rs).withInq sd' q = (net.withInq sd' q).push sd rs := by
  unfold push withInq
  rw [Function.update_of_ne h, Function.update_of_ne h.symm, Function.update_comm h]

theorem push_comm {sd' : Sd} (h : sd' ≠ sd) (rs rs' : List Sent) :
    (net.push sd rs).push sd' rs' = (net.push sd' rs').push sd rs := by
  unfold push
  rw [Function.update_of_ne h, Function.update_of_ne h.symm, Function.update_comm h]

theorem withInq_self {net : Net Sd} {sd : Sd} {q : List Incoming} (h : (net sd).inq = q) :
    net.withInq sd q = net := by
  rw [withInq, ← h, Function.update_eq_self_iff]

end

/-- The network of a process with one connection, on which sending does not fail. -/
def wire (q : List Incoming) (rs : List Sent) : Net Unit := fun _ => ⟨q, rs, []⟩

@[simp] theorem wire_apply (q : List Incoming) (rs : List Sent) (u : Unit) :
    wire q rs u = ⟨q, rs, []⟩ := rfl

@[simp] theorem wire_withInq (q q' : List Incoming) (rs : List Sent) :
    (wire q rs).withInq () q' = wire q' rs := by
  funext u
  simp [withInq]

@[simp] theorem wire_push (q : List Incoming) (rs rs' : List Sent) :
    (wire q rs).push () rs' = wire q (rs ++ rs') := by
  funext u
  simp [push]

section
variable {net : Net Sd} {sd : Sd} {α β : Type}

@[simp] theorem run_pure (a : α) : run (pure a) net = .done net a := rfl

theorem run_bind (p : NetProg Sd α) (f : α → NetProg Sd β) :
    run (p >>= f) net = (run p net).bind fun net a => run (f a) net := Prog.run_bind _ _ p f net

@[simp] theorem run_assert_true (f : NetFault) : run (.assert true f) net = .done net () := rfl

@[simp] theorem run_assert_false (f : NetFault) : run (.assert false f) net = .fault f := rfl

theorem run_claraSendmsg (hf : (net sd).sendFails = []) (type : MessageType) (msg : Bytes) :
    run (claraSendmsg sd type msg) net =
      .done (net.push sd [.msg type msg]) (some msg.length) := by
  simp [run, claraSendmsg, NetProg.perform, Prog.run_perform, exec, post, hf, push]

theorem run_claraSendmsg_sent (hf : (net sd).sendFails.head? ≠ some true) (type : MessageType)
    (msg : Bytes) :
    run (claraSendmsg sd type msg) net = .done (Function.update net sd
      ⟨(net sd).inq, (net sd).sent ++ [.msg type msg], (net sd).sendFails.tail⟩)
        (some msg.length) := by
  simp only [run, claraSendmsg, NetProg.perform, Prog.run_perform, exec, post]
  split
  · next fs hfs => simp [hfs] at hf
  · rfl

theorem run_claraSendmsg_failed (hf : (net sd).sendFails.head? = some true) (type : MessageType)
    (msg : Bytes) :
    run (claraSendmsg sd type msg) net =
      .done (Function.update net sd { net sd with sendFails := (net sd).sendFails.tail }) none := by
  obtain ⟨fs, hfs⟩ : ∃ fs, (net sd).sendFails = true :: fs := by
    cases h : (net sd).sendFails with
    | nil => simp [h] at hf
    | cons b fs =>
      rw [h, List.head?_cons, Option.some.injEq] at hf
      exact ⟨fs, by rw [hf]⟩
  simp [run, claraSendmsg, NetProg.perform, Prog.run_perform, exec, post, hfs]

/-- A send answers, whether it succeeds or not. -/
theorem run_claraSendmsg_cases (net : Net Sd) (sd : Sd) (type : MessageType) (msg : Bytes) :
    ∃ net', run (claraSendmsg sd type msg) net = .done net' none ∨
      run (claraSendmsg sd type msg) net = .done net' (some msg.length) := by
  simp only [claraSendmsg, run, NetProg.perform, Prog.run_perform, exec, post]
  split
  · exact ⟨_, .inl rfl⟩
  · exact ⟨_, .inr rfl⟩

/-- A send takes nothing from what waits to be received. -/
theorem run_claraSendmsg_inq {net' : Net Sd} {type : MessageType} {msg : Bytes} {r : Option ℕ}
    (h : run (claraSendmsg sd type msg) net = .done net' r) (sd' : Sd) :
    (net' sd').inq = (net sd').inq := by
  simp only [claraSendmsg, run, NetProg.perform, Prog.run_perform, exec, post] at h
  split at h <;> obtain ⟨rfl, -⟩ := Outcome.done.inj h <;>
    rcases eq_or_ne sd' sd with rfl | hne <;> simp [*]

theorem take_done {net' : Net Sd} {len : ℕ} {i : Incoming} (h : net.take sd len = .done net' i) :
    ∃ q, net' = net.withInq sd q := by
  simp only [take] at h
  split at h
  · cases h
  all_goals
    try split at h
    all_goals
      obtain ⟨rfl, -⟩ := Outcome.done.inj h
      exact ⟨_, rfl⟩

theorem exec_recv_done {net' : Net Sd} {len : ℕ} {r : Option Bytes}
    (h : exec (.recv sd len) net = .done net' r) : ∃ q, net' = net.withInq sd q := by
  obtain ⟨net₁, i, ht, h⟩ := Outcome.bind_eq_done h
  cases i <;> obtain ⟨rfl, -⟩ := Outcome.done.inj h <;> exact take_done ht

theorem exec_recvmsg_done {net' : Net Sd} {len : ℕ} {r : Received}
    (h : exec (.recvmsg sd len) net = .done net' r) : ∃ q, net' = net.withInq sd q := by
  obtain ⟨net₁, i, ht, h⟩ := Outcome.bind_eq_done h
  cases i with
  | failure =>
    obtain ⟨rfl, -⟩ := Outcome.done.inj h
    exact take_done ht
  | notification b =>
    simp only at h
    split_ifs at h
    obtain ⟨rfl, -⟩ := Outcome.done.inj h
    exact take_done ht
  | record b =>
    simp only at h
    split_ifs at h
    obtain ⟨rfl, -⟩ := Outcome.done.inj h
    exact take_done ht

theorem withInq_sendFails (q : List Incoming) (sd' : Sd) :
    (net.withInq sd q sd').sendFails = (net sd').sendFails := by
  rcases eq_or_ne sd' sd with rfl | hne
  · rw [withInq_apply]
  · rw [withInq_of_ne (h := hne)]

theorem run_claraRecvmsg_sendFails {net' : Net Sd} {len : ℕ} {r : Received}
    (h : run (claraRecvmsg sd len) net = .done net' r) (sd' : Sd) :
    (net' sd').sendFails = (net sd').sendFails := by
  rw [run, claraRecvmsg, NetProg.perform, Prog.run_perform] at h
  obtain ⟨q, rfl⟩ := exec_recvmsg_done h
  exact withInq_sendFails q sd'

/-- Whatever is done, sends that cannot fail never will. -/
theorem exec_sendFails {o : NetOp Sd} {net' : Net Sd} {r : o.Res}
    (h : exec o net = .done net' r) {sd' : Sd} (hf : (net sd').sendFails = []) :
    (net' sd').sendFails = [] := by
  have hpost : ∀ (sd : Sd) (m : Sent) (n : ℕ) (r : Option ℕ),
      net.post sd m n = .done net' r → (net' sd').sendFails = [] := by
    intro sd m n r h
    simp only [post] at h
    split at h <;> obtain ⟨rfl, -⟩ := Outcome.done.inj h <;>
      rcases eq_or_ne sd' sd with rfl | hne <;> simp_all
  cases o with
  | sendmsg sd type msg => exact hpost sd _ _ r h
  | send sd msg => exact hpost sd _ _ r h
  | recv sd len =>
    obtain ⟨q, rfl⟩ := exec_recv_done h
    rw [withInq_sendFails, hf]
  | recvmsg sd len =>
    obtain ⟨q, rfl⟩ := exec_recvmsg_done h
    rw [withInq_sendFails, hf]
  | fail f => cases h
  | spin => cases h

/-- Receiving is where a program waits or goes on, never where it fails. -/
theorem take_ne_fault (net : Net Sd) (sd : Sd) (len : ℕ) (f : NetFault) :
    net.take sd len ≠ .fault f := by
  simp only [take]
  split
  · exact nofun
  · exact nofun
  · split_ifs <;> exact nofun
  · split_ifs <;> exact nofun

theorem exec_sendmsg_isNone {net' : Net Sd} {type : MessageType} {msg : Bytes} {r : Option ℕ}
    (h : exec (.sendmsg sd type msg) net = .done net' r) :
    r.isNone ↔ (net sd).sendFails.head? = some true := by
  simp only [exec, post] at h
  split at h
  · next fs hfs =>
    obtain ⟨-, rfl⟩ := Outcome.done.inj h
    exact iff_of_true rfl (by rw [hfs]; rfl)
  · next hf =>
    obtain ⟨-, rfl⟩ := Outcome.done.inj h
    refine iff_of_false Bool.false_ne_true fun hhead => ?_
    obtain ⟨fs, hfs⟩ := List.head?_eq_some_iff.mp hhead
    exact hf fs hfs

theorem run_claraSend (hf : (net sd).sendFails = []) (msg : Bytes) :
    run (claraSend sd msg) net = .done (net.push sd [.data msg]) (some msg.length) := by
  simp [run, claraSend, NetProg.perform, Prog.run_perform, exec, post, hf, push]

theorem run_claraRecv {b : Bytes} {q : List Incoming} (hq : (net sd).inq = .record b :: q)
    {len : ℕ} (hb : b.length ≤ len) :
    run (claraRecv sd len) net = .done (net.withInq sd q) (some b) := by
  simp [run, claraRecv, NetProg.perform, Prog.run_perform, exec, take, hq, hb, withInq]

theorem record_type (type : MessageType) (payload : Bytes) :
    UInt16.ofNat (Bytes.toNat ((Sent.msg type payload).record.take 2)) = type := by
  have h := type.toNat_lt
  rw [Sent.record, List.take_left' (by simp), Bytes.toNat_ofNat, Nat.mod_eq_of_lt (by simpa),
    UInt16.ofNat_toNat]

theorem run_claraRecvmsg {type : MessageType} {payload : Bytes} {q : List Incoming}
    (hq : (net sd).inq = .record (Sent.msg type payload).record :: q) {len : ℕ}
    (hb : payload.length ≤ len) :
    run (claraRecvmsg sd len) net = .done (net.withInq sd q) (.message type payload) := by
  have hlen : (Sent.msg type payload).record.length = 2 + payload.length := by
    simp [Sent.record]
  have hdrop : (Sent.msg type payload).record.drop 2 = payload := by
    rw [Sent.record, List.drop_left' (by simp)]
  simp [run, claraRecvmsg, NetProg.perform, Prog.run_perform, exec, take, hq, hlen, hb, withInq, hdrop,
    record_type]

theorem run_claraRecvmsg_failure {q : List Incoming} (hq : (net sd).inq = .failure :: q)
    (len : ℕ) : run (claraRecvmsg sd len) net = .done (net.withInq sd q) .failed := by
  simp [run, claraRecvmsg, NetProg.perform, Prog.run_perform, exec, take, hq, withInq]

theorem run_claraRecvmsg_stored {i : Incoming} {later : List Incoming} {len : ℕ} {b : Bytes}
    (hq : (net sd).inq = i :: later)
    (h : i.stored len = some b) : ∃ r, Net.run (claraRecvmsg sd len) net =
      .done (net.withInq sd later) r ∧ r.stored = some b := by
  cases i with
  | record b' =>
    rw [Incoming.stored] at h
    split_ifs at h with hb
    obtain rfl := Option.some.inj h
    refine ⟨.message (UInt16.ofNat (Bytes.toNat (b'.take 2))) (b'.drop 2), ?_, rfl⟩
    simp [run, claraRecvmsg, NetProg.perform, Prog.run_perform, exec, take, hq, hb.1, hb.2,
      withInq]
  | notification b' =>
    rw [Incoming.stored] at h
    split_ifs at h with hb
    obtain rfl := Option.some.inj h
    refine ⟨.notification b', ?_, rfl⟩
    have hle : b'.length ≤ 2 + len := by omega
    simp [run, claraRecvmsg, NetProg.perform, Prog.run_perform, exec, take, hq, hb, hle, withInq]
  | failure => cases h

theorem stored_of_run {net' : Net Sd} {i : Incoming} {later : List Incoming} {len : ℕ}
    {r : Received} {b : Bytes} (hq : (net sd).inq = i :: later)
    (h : Net.run (claraRecvmsg sd len) net = .done net' r) (hr : r.stored = some b) :
    i.stored len = some b := by
  simp only [run, claraRecvmsg, NetProg.perform, Prog.run_perform, exec, take, hq] at h
  cases i with
  | record b' =>
    simp only at h
    split_ifs at h with hle
    · simp only [Outcome.bind_done] at h
      split_ifs at h with h2
      obtain ⟨-, rfl⟩ := Outcome.done.inj h
      rw [Incoming.stored, if_pos ⟨h2, hle⟩]
      exact hr
    · obtain ⟨-, rfl⟩ := Outcome.done.inj h
      cases hr
  | notification b' =>
    simp only at h
    split_ifs at h with hle
    · simp only [Outcome.bind_done] at h
      split_ifs at h with h2
      obtain ⟨-, rfl⟩ := Outcome.done.inj h
      rw [Incoming.stored, if_pos h2]
      exact hr
    · obtain ⟨-, rfl⟩ := Outcome.done.inj h
      cases hr
  | failure =>
    obtain ⟨-, rfl⟩ := Outcome.done.inj h
    cases hr

theorem stored_of_exec {net' : Net Sd} {len : ℕ} {r : Received} {b : Bytes}
    (h : exec (.recvmsg sd len) net = .done net' r)
    (hb : ∀ i later, (net sd).inq = i :: later → i.stored len = some b) : r.stored = some b := by
  cases hq : (net sd).inq with
  | nil =>
    simp only [exec, take, hq] at h
    cases h
  | cons i later =>
    obtain ⟨r', hrun, hr⟩ := run_claraRecvmsg_stored hq (hb i later hq)
    have hsame : run (claraRecvmsg sd len) net = exec (.recvmsg sd len) net := Prog.run_perform ..
    rw [hsame, h] at hrun
    rw [(Outcome.done.inj hrun).2, hr]

/-- A notification that the buffer cannot hold is reported as a failure, and the rest of it is
received next. -/
theorem run_claraRecvmsg_truncated {b : Bytes} {q : List Incoming}
    (hq : (net sd).inq = .notification b :: q) {len : ℕ} (hb : 2 + len < b.length) :
    run (claraRecvmsg sd len) net =
      .done (net.withInq sd (.notification (b.drop (2 + len)) :: q)) .failed := by
  simp [run, claraRecvmsg, NetProg.perform, Prog.run_perform, exec, take, hq, withInq,
    Nat.not_le.mpr hb]

/-- A message that the buffer cannot hold is reported as a failure too. -/
theorem run_claraRecvmsg_tooLong {b : Bytes} {q : List Incoming}
    (hq : (net sd).inq = .record b :: q) {len : ℕ} (hb : 2 + len < b.length) :
    run (claraRecvmsg sd len) net =
      .done (net.withInq sd (.record (b.drop (2 + len)) :: q)) .failed := by
  simp [run, claraRecvmsg, NetProg.perform, Prog.run_perform, exec, take, hq, withInq,
    Nat.not_le.mpr hb]

end

end Net

end Clara
