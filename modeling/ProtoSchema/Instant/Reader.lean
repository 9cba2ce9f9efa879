import ProtoSchema.Instant
import ProtoSchema.Text.Blank
import ProtoSchema.Text.Digit

/-! # Reading instants

Three notations are tried in turn: the strict one with fixed widths and a zone, a loose one with a
numeric zone, and the loose one without a zone, which is taken as UTC. If all fail, the fault of the
second is the one reported.
-/

namespace ProtoSchema.Instant

inductive Fault where
  | short
  | invalid
  | range
  | long
  | impossible
deriving DecidableEq, Repr

namespace Fault

def message : Fault → String
  | short => "premature end of input"
  | invalid => "input contains invalid characters"
  | range => "input is out of range"
  | long => "trailing input"
  | impossible => "no possible date and time matching input"

end Fault

abbrev Scan (α : Type) := StateT (List Char) (Except Fault) α

namespace Scan

def fail {α : Type} (f : Fault) : Scan α := fun _ => .error f

/-- Between `least` and `most` digits. -/
def digits (least most : Nat) : Scan (List Char) := fun cs =>
  let ds := (cs.take most).takeWhile Char.isDigit
  if cs.length < least then .error .short
  else if ds.length < least then .error .invalid
  else .ok (ds, cs.drop ds.length)

def number (least most : Nat) : Scan Nat := do
  return Text.ofDigits 10 (← digits least most)

def within (low high : Nat) (n : Nat) : Scan Nat :=
  if low ≤ n ∧ n ≤ high then pure n else fail .range

def literal (c : Char) : Scan Unit := fun cs =>
  match cs with
  | [] => .error .short
  | d :: rest => if d = c then .ok ((), rest) else .error .invalid

def skipWhile (p : Char → Bool) : Scan Unit := fun cs => .ok ((), cs.dropWhile p)

/-- One or more digits after a point, as nanoseconds; digits past the ninth do not count. -/
def fraction : Scan Nat := fun cs =>
  match cs with
  | '.' :: rest => (do
      let ds ← digits 1 9
      skipWhile Char.isDigit
      return Text.ofDigits 10 ds * Nat.pow 10 (9 - ds.length) : Scan Nat) rest
  | _ => .ok (0, cs)

def sign : Scan Int := fun cs =>
  match cs with
  | [] => .error .short
  | c :: rest =>
    if c = '+' then .ok (1, rest)
    else if c = '-' || c = '−' then .ok (-1, rest)
    else .error .invalid

def byteLength (cs : List Char) : Nat := (String.ofList cs).utf8ByteSize

/-- Two digits; a text is too short for them if it has fewer than two bytes. -/
def twoDigits : Scan (Nat × Nat) := fun cs =>
  if byteLength cs < 2 then .error .short
  else
    match cs with
    | a :: b :: rest =>
      if a.isDigit && b.isDigit then .ok ((Text.digitValue a, Text.digitValue b), rest)
      else .error .invalid
    | _ => .error .invalid

/-- The seconds of a zone, with something between its hours and its minutes. -/
def zone (between : Scan Unit) : Scan Int := do
  let s ← sign
  let (h, h') ← twoDigits
  between
  let (m, m') ← twoDigits
  if 5 < m then fail .range
  else return s * ((h * 10 + h') * 3600 + (m * 10 + m') * 60 : Nat)

end Scan

structure Clock where
  date : Date
  hour : Nat
  minute : Nat
  second : Nat
  nanos : Nat
deriving DecidableEq, Repr

namespace Clock

open Scan

structure Spelling where
  year : Scan Int
  pair : Scan Nat
  divider : Scan Unit

/-- Date, divider, time and fraction; each part has to be in its own range. -/
def scan (s : Spelling) : Scan Clock := do
  let year ← s.year
  literal '-'
  let month ← s.pair >>= within 1 12
  literal '-'
  let day ← s.pair >>= within 1 31
  s.divider
  let hour ← s.pair >>= within 0 23
  literal ':'
  let minute ← s.pair >>= within 0 59
  literal ':'
  let second ← s.pair >>= within 0 60
  let nanos ← fraction
  return ⟨⟨year, month, day⟩, hour, minute, second, nanos⟩

def strictDivider : Scan Unit := fun cs =>
  match cs with
  | [] => .error .short
  | c :: rest => if c = 'T' || c = 't' || c = ' ' then .ok ((), rest) else .error .invalid

def strict : Spelling where
  year := do return (← number 4 4 : Nat)
  pair := number 2 2
  divider := strictDivider

/-- A year of up to four digits, or of any number of them after a sign. -/
def looseYear : Scan Int := do
  skipWhile Text.isBlank
  let year : Int ← fun cs =>
    match cs with
    | '-' :: rest => (do return -(← number 1 rest.length : Nat) : Scan Int) rest
    | '+' :: rest => (do return (← number 1 rest.length : Nat) : Scan Int) rest
    | _ => (do return (← number 1 4 : Nat) : Scan Int) cs
  if -2147483648 ≤ year ∧ year ≤ 2147483647 then return year else fail .range

def loose : Spelling where
  year := looseYear
  pair := do
    skipWhile Text.isBlank
    number 1 2
  divider := literal 'T'

/-- The instant at which a clock with the given zone shows this. A second 60 is a leap second. -/
def toInstant (c : Clock) (zone : Int) : Except Fault Instant :=
  if !c.date.isValid || (secondsPerDay : Int) ≤ zone.natAbs then .error .range
  else
    let inDay := c.hour * 3600 + c.minute * 60 + min c.second 59
    let seconds := c.date.toDays * secondsPerDay + inDay - zone
    let leap := if c.second = 60 then nanosPerSecond else 0
    if seconds < minSeconds || maxSeconds < seconds then .error .impossible
    else .ok ⟨seconds, c.nanos + leap⟩

end Clock

open Scan

def strictZone : Scan Int := fun cs =>
  match cs with
  | 'Z' :: rest => .ok (0, rest)
  | 'z' :: rest => .ok (0, rest)
  | _ => zone (literal ':') cs

def looseZone : Scan Int := do
  skipWhile Text.isBlank
  zone (skipWhile fun c => c = ':' || Text.isBlank c)

/-- Reads a whole text as a clock and a zone. -/
def readWith (s : Clock.Spelling) (zone : Scan Int) (cs : List Char) : Except Fault Instant := do
  let ((clock, offset), rest) ← (do return (← Clock.scan s, ← zone) : Scan (Clock × Int)) cs
  if rest.isEmpty then clock.toInstant offset else .error .long

def readChars (cs : List Char) : Except Fault Instant :=
  match readWith Clock.strict strictZone cs with
  | .ok t => .ok t
  | .error _ =>
    match readWith Clock.loose looseZone cs with
    | .ok t => .ok t
    | .error fault =>
      match readWith Clock.loose (pure 0) cs with
      | .ok t => .ok t
      | .error _ => .error fault

def read (text : String) : Except Fault Instant := readChars text.toList

end ProtoSchema.Instant
