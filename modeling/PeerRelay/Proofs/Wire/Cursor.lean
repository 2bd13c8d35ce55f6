import PeerRelay.Wire.Request

/-!
# Reading that never runs out

A request is read off its body in small steps: a check of how many bytes are left stands in front
of the steps that take them, and an error counts the bytes that were taken before. Here each of
these steps stands by itself. A step that takes bytes which are not there, or a number from a
smaller one, is a fault. No body leads to a fault, and what is read is what `Request.decode` says.
-/

namespace PeerRelay

open Wire

namespace Wire

/-- What a step must not come to. -/
inductive Fault where
  /-- Bytes are taken that are not there. -/
  | pastEnd
  /-- A number is taken from a smaller one. -/
  | belowZero
  deriving DecidableEq, Repr

/-- What reading comes to: a value and the bytes that are left, an error for the sender of the
bytes, or a fault. -/
inductive Reading (α : Type) where
  | done (value : α) (left : Bytes)
  | refused (error : Error)
  | fault (cause : Fault)
  deriving Repr

/-- A value or an error, unless there was a fault. -/
def Reading.outcome? {α : Type} : Reading α → Option (Except Error α)
  | done value _ => some (.ok value)
  | refused error => some (.error error)
  | fault _ => none

/-- A way of reading from the bytes that are left of a body. -/
def Cursor (α : Type) : Type := Bytes → Reading α

namespace Cursor

instance : Monad Cursor where
  pure value := fun left => .done value left
  bind first next := fun left =>
    match first left with
    | .done value left => next value left
    | .refused error => .refused error
    | .fault cause => .fault cause

variable {α β : Type}

def refuse (error : Error) : Cursor α := fun _ => .refused error

/-- The number of bytes that are left. -/
def remaining : Cursor Nat := fun left => .done left.length left

/-- A check without which no bytes are taken. -/
def need (field : Field) (needed : Nat) : Cursor Unit := fun left =>
  match demand field needed left with
  | .ok () => .done () left
  | .error error => .refused error

def minus (m n : Nat) : Cursor Nat := fun left =>
  if m < n then .fault .belowZero else .done (m - n) left

def byte : Cursor UInt8
  | [] => .fault .pastEnd
  | b :: left => .done b left

def word : Cursor UInt32
  | a :: b :: c :: d :: left => .done (ofLittle32 a b c d) left
  | _ => .fault .pastEnd

def quad : Cursor Ipv4
  | a :: b :: c :: d :: left => .done ⟨a, b, c, d⟩ left
  | _ => .fault .pastEnd

def split (n : Nat) : Cursor Bytes := fun left =>
  if left.length < n then .fault .pastEnd else .done (left.take n) (left.drop n)

/-- A length byte and that many bytes of a body. -/
def short (field : Field) (body : Bytes) : Cursor Bytes := do
  need field 1
  let n ← byte
  let present ← remaining
  if present < n.toNat then
    let taken ← minus body.length present
    refuse (.truncated field (taken + n.toNat) body.length)
  else split n.toNat

end Cursor

end Wire

namespace Request

open Cursor

/-- Reads a body step by step. -/
def walk (body : Bytes) : Opcode → Cursor Request
  | .heartbeat => return heartbeat
  | .login => do
    let guid ← short .loginGuid body
    need .loginPrivateAddress 4
    let privateAddr ← quad
    return login ⟨guid⟩ privateAddr
  | .proxy => do
    need .proxyIds 8
    let source ← word
    let destination ← word
    let game ← short .proxyGameId body
    return proxy source destination (Text.Utf8.decodeLossy game)
  | .getPeers => do
    need .requesterId 4
    let requester ← word
    return getPeers requester
  | .access => refuse (.notARequest .access)
  | .stopProxy => refuse (.notARequest .stopProxy)

/-- Reads a frame step by step. -/
def read (f : Frame) : Reading Request :=
  match Opcode.ofCode? f.header.function with
  | none => .refused (.unknownFunction f.header.function)
  | some op => walk f.body op f.body

end Request

/-! ## No step is a fault -/

namespace Wire.Cursor

variable {α β : Type} {left rest : Bytes} {field : Field} {n : Nat}

theorem bind_of_done {m : Cursor α} {value : α} (h : m left = .done value rest)
    (next : α → Cursor β) : (m >>= next) left = next value rest := by
  simp only [bind, h]

theorem bind_of_refused {m : Cursor α} {error : Error} (h : m left = .refused error)
    (next : α → Cursor β) : (m >>= next) left = .refused error := by
  simp only [bind, h]

theorem need_of_le (h : n ≤ left.length) : need field n left = .done () left := by
  rw [need, demand, if_neg (Nat.not_lt.mpr h)]

theorem byte_cons (b : UInt8) (left : Bytes) : byte (b :: left) = .done b left := rfl

theorem word_cons (a b c d : UInt8) (left : Bytes) :
    word (a :: b :: c :: d :: left) = .done (ofLittle32 a b c d) left := rfl

theorem remaining_apply (left : Bytes) : remaining left = .done left.length left := rfl

theorem minus_of_le {m : Nat} (h : n ≤ m) : minus m n left = .done (m - n) left := by
  rw [minus, if_neg (Nat.not_lt.mpr h)]

/-- What is left of a body is no longer than the body, so neither the bytes that are taken nor the
difference of the lengths is a fault. -/
theorem short_eq (field : Field) {body : Bytes} (h : left.length ≤ body.length) :
    short field body left =
      match readShort field body left with
      | .ok (bytes, rest) => .done bytes rest
      | .error error => .refused error := by
  match left with
  | [] => rfl
  | n :: left =>
      rw [short, bind_of_done (need_of_le (Nat.le_add_left 1 left.length)),
        bind_of_done (byte_cons n left), bind_of_done (remaining_apply left), readShort]
      by_cases hshort : left.length < n.toNat
      · rw [if_pos hshort, if_pos hshort,
          bind_of_done (minus_of_le (Nat.le_of_succ_le h))]
        rfl
      · rw [if_neg hshort, if_neg hshort, split, if_neg hshort]

end Wire.Cursor

namespace Request

open Cursor

theorem outcome?_walk_login (body : Bytes) :
    (walk body .login body).outcome? = some (decodeLogin body) := by
  rw [decodeLogin]
  have hshort := short_eq .loginGuid (Nat.le_refl body.length)
  cases hread : readShort .loginGuid body body with
  | error e =>
      rw [hread] at hshort
      rw [walk, bind_of_refused hshort]
      rfl
  | ok found =>
      obtain ⟨guid, after⟩ := found
      rw [hread] at hshort
      rw [walk, bind_of_done hshort]
      match after with
      | a :: b :: c :: d :: rest => rfl
      | [] | [_] | [_, _] | [_, _, _] => rfl

theorem outcome?_walk_proxy (body : Bytes) :
    (walk body .proxy body).outcome? = some (decodeProxy body) := by
  match body with
  | a :: b :: c :: d :: e :: f :: g :: h :: left =>
      have hle : left.length ≤ (a :: b :: c :: d :: e :: f :: g :: h :: left).length :=
        Nat.le_add_right left.length 8
      have hshort := short_eq .proxyGameId hle
      rw [walk, bind_of_done (need_of_le (Nat.le_add_left 8 left.length)),
        bind_of_done (word_cons a b c d _), bind_of_done (word_cons e f g h _), decodeProxy]
      cases hread : readShort .proxyGameId (a :: b :: c :: d :: e :: f :: g :: h :: left) left with
      | error error =>
          rw [hread] at hshort
          rw [bind_of_refused hshort]
          rfl
      | ok found =>
          rw [hread] at hshort
          rw [bind_of_done hshort]
          rfl
  | [] | [_] | [_, _] | [_, _, _] | [_, _, _, _] | [_, _, _, _, _] | [_, _, _, _, _, _]
  | [_, _, _, _, _, _, _] => rfl

theorem outcome?_walk_getPeers (body : Bytes) :
    (walk body .getPeers body).outcome? = some (decodeGetPeers body) := by
  match body with
  | a :: b :: c :: d :: left => rfl
  | [] | [_] | [_, _] | [_, _, _] => rfl

/-- Reading step by step comes to what is decoded, and never to a fault. -/
theorem outcome?_read (f : Frame) : (read f).outcome? = some (decode f) := by
  unfold read decode
  cases Opcode.ofCode? f.header.function with
  | none => rfl
  | some op =>
      cases op with
      | heartbeat => rfl
      | login => exact outcome?_walk_login f.body
      | proxy => exact outcome?_walk_proxy f.body
      | getPeers => exact outcome?_walk_getPeers f.body
      | access => rfl
      | stopProxy => rfl

end Request

end PeerRelay
