/-!
# UTF-8

Decoding of octets with the fault of the first ill-formed sequence, and the bit layout of a code
point. The layout is applied to surrogates too, so a lone surrogate becomes octets that decoding
refuses.
-/

namespace Staging.Text.Utf8

/-- Why an octet cannot begin a character where it stands. -/
inductive Reason
  | start
  | continuation
  | truncated
  deriving DecidableEq, Repr

/-- The first octet that does not begin a well-formed sequence. -/
structure Fault where
  octet : UInt8
  position : Nat
  reason : Reason
  deriving DecidableEq, Repr

def Fault.message (f : Fault) : String :=
  let reason := match f.reason with
    | .start => "invalid start byte"
    | .continuation => "invalid continuation byte"
    | .truncated => "unexpected end of data"
  let digits := Nat.toDigits 16 f.octet.toNat
  let shown := String.ofList (if digits.length < 2 then '0' :: digits else digits)
  "'utf-8' codec can't decode byte 0x" ++ shown ++ " in position " ++ toString f.position
    ++ ": " ++ reason

/-- Whether `n` is an octet that continues a sequence. -/
def isContinuation (n : Nat) : Bool := 0x80 ≤ n && n ≤ 0xBF

/-- How many octets follow a first octet `n`; `none` if no well-formed sequence begins with it. -/
def following? (n : Nat) : Option Nat :=
  if n ≤ 0x7F then some 0
  else if 0xC2 ≤ n ∧ n ≤ 0xDF then some 1
  else if 0xE0 ≤ n ∧ n ≤ 0xEF then some 2
  else if 0xF0 ≤ n ∧ n ≤ 0xF4 then some 3
  else none

/-- Whether the second octet `m` may follow the first octet `n`: neither an overlong form, nor a
surrogate, nor a code point above U+10FFFF. -/
def secondAllowed (n m : Nat) : Bool :=
  isContinuation m && (n != 0xE0 || 0xA0 ≤ m) && (n != 0xED || m ≤ 0x9F)
    && (n != 0xF0 || 0x90 ≤ m) && (n != 0xF4 || m ≤ 0x8F)

/-- The code point that begins with octet `a`, and how many octets of `rest` belong to it. -/
def firstPoint (a : UInt8) (rest : List UInt8) : Except Reason (Nat × Nat) :=
  let n := a.toNat
  match following? n, rest with
  | none, _ => .error .start
  | some 0, _ => .ok (n, 0)
  | some 1, b :: _ =>
    if secondAllowed n b.toNat then .ok ((n - 0xC0) * 0x40 + (b.toNat - 0x80), 1)
    else .error .continuation
  | some 2, b :: c :: _ =>
    if secondAllowed n b.toNat && isContinuation c.toNat then
      .ok (((n - 0xE0) * 0x40 + (b.toNat - 0x80)) * 0x40 + (c.toNat - 0x80), 2)
    else .error .continuation
  | some _, b :: c :: d :: _ =>
    if secondAllowed n b.toNat && isContinuation c.toNat && isContinuation d.toNat then
      .ok ((((n - 0xF0) * 0x40 + (b.toNat - 0x80)) * 0x40 + (c.toNat - 0x80)) * 0x40
        + (d.toNat - 0x80), 3)
    else .error .continuation
  | some _, b :: _ => .error (if secondAllowed n b.toNat then .truncated else .continuation)
  | some _, [] => .error .truncated

/-- Decodes octets that begin at offset `position` of the text. -/
def decodeFrom (position : Nat) (octets : List UInt8) : Except Fault (List Char) :=
  match octets with
  | [] => .ok []
  | a :: rest =>
    match firstPoint a rest with
    | .error reason => .error ⟨a, position, reason⟩
    | .ok (n, k) => (decodeFrom (position + 1 + k) (rest.drop k)).map (Char.ofNat n :: ·)
termination_by octets.length
decreasing_by simp only [List.length_drop, List.length_cons]; omega

/-- Decodes a text. -/
def decode (octets : List UInt8) : Except Fault (List Char) :=
  decodeFrom 0 octets

/-! ## Encoding -/

/-- The octets of a code point in UTF-8's bit layout. -/
def encodePoint (n : Nat) : List UInt8 :=
  if n < 0x80 then [n.toUInt8]
  else if n < 0x800 then [(0xC0 + n / 0x40).toUInt8, (0x80 + n % 0x40).toUInt8]
  else if n < 0x10000 then
    [(0xE0 + n / 0x1000).toUInt8, (0x80 + n / 0x40 % 0x40).toUInt8, (0x80 + n % 0x40).toUInt8]
  else
    [(0xF0 + n / 0x40000).toUInt8, (0x80 + n / 0x1000 % 0x40).toUInt8,
      (0x80 + n / 0x40 % 0x40).toUInt8, (0x80 + n % 0x40).toUInt8]

end Staging.Text.Utf8
