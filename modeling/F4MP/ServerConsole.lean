import F4MP.Library.Decimal
import F4MP.ServerModel

/-!
The server console: how a line is split, how numbers in it are read, and what the
commands do.
-/

namespace F4MP.ServerConsole

open F4MP.Types
open F4MP.ServerModel

/-- The build target: the largest `unsigned long`, `2 ^ 32 - 1` or `2 ^ 64 - 1`. -/
class Platform where
  ulongMax : Nat

/-- `isspace` in the "C" locale. -/
def isSpace (c : UInt8) : Bool := c == 0x20 || (0x09 ≤ c && c ≤ 0x0D)

theorem isSpace_iff (c : UInt8) :
    isSpace c = true ↔ c.toNat = 32 ∨ 9 ≤ c.toNat ∧ c.toNat ≤ 13 := by
  simp only [isSpace, Bool.or_eq_true, beq_iff_eq, Bool.and_eq_true, decide_eq_true_eq,
    UInt8.le_iff_toNat_le, ← UInt8.toNat_inj]
  rfl

def isDigit (c : UInt8) : Bool := 0x30 ≤ c && c ≤ 0x39

/-- The whitespace-delimited tokens of a line. -/
def split (line : Bytes) : List Bytes :=
  (line.splitOnP isSpace).filter fun token => !token.isEmpty

def digitsValue (digits : Bytes) : Nat :=
  digits.foldl (fun value c => value * 10 + (c.toNat - 0x30)) 0

open Library.Decimal in
theorem isDigit_iff (c : UInt8) : isDigit c = true ↔ IsDigit c := by
  simp only [isDigit, Bool.and_eq_true, decide_eq_true_eq, UInt8.le_iff_toNat_le]
  rfl

open Library.Decimal in
theorem denotes_iff (digits : Bytes) (n : Nat) :
    Denotes digits n ↔
      digits ≠ [] ∧ (∀ c ∈ digits, isDigit c = true) ∧ digitsValue digits = n := by
  simp only [isDigit_iff]
  exact ⟨fun h => ⟨h.ne_nil, h.digits, h.value_eq⟩, fun h => ⟨h.1, h.2.1, h.2.2⟩⟩

/-- `std::stoul` of a token: an optional sign and the digits at the front, the rest
ignored.  `none` is one of its two exceptions; a minus sign negates modulo the type. -/
def stoul [Platform] (token : Bytes) : Option Nat :=
  let (negative, rest) :=
    match token with
    | 0x2D :: rest => (true, rest)
    | 0x2B :: rest => (false, rest)
    | rest => (false, rest)
  let digits := rest.takeWhile isDigit
  let value := digitsValue digits
  if digits.isEmpty || value > Platform.ulongMax then none
  else if negative then some ((Platform.ulongMax + 1 - value) % (Platform.ulongMax + 1))
  else some value

open Library.Decimal in
theorem stoul_of_denotes [Platform] {token : Bytes} {n : Nat} (hdenotes : Denotes token n) :
    stoul token = if n > Platform.ulongMax then none else some n := by
  obtain ⟨hne, hdigits, hvalue⟩ := (denotes_iff token n).mp hdenotes
  have htake : token.takeWhile isDigit = token := List.takeWhile_eq_self_iff.mpr hdigits
  rw [stoul]
  · rw [htake, hvalue]
    simp [hne]
  · rintro rest rfl
    exact absurd (hdigits _ List.mem_cons_self) (by decide)
  · rintro rest rfl
    exact absurd (hdigits _ List.mem_cons_self) (by decide)

/-- `std::string::find` of a string: the first index it stands at. -/
def findSub (needle : Bytes) : Bytes → Option Nat
  | [] => if needle.isEmpty then some 0 else none
  | c :: rest =>
      if needle.isPrefixOf (c :: rest) then some 0
      else (findSub needle rest).map (· + 1)

/-- `std::string::substr(pos)`; `none` is `std::out_of_range`. -/
def substr (s : Bytes) (pos : Nat) : Option Bytes :=
  if pos ≤ s.length then some (s.drop pos) else none

def joinWords : List Bytes → Bytes
  | [] => []
  | [word] => word
  | word :: words => word ++ ascii " " ++ joinWords words

def executeBotAdd (s : Server) (args : List Bytes) : Server × List Out :=
  match args with
  | word :: rest =>
      if word = ascii "orbit" then addBot s .kOrbit (joinWords rest)
      else if word = ascii "mirror" then addBot s .kMirror (joinWords rest)
      else addBot s .kMirror (joinWords args)
  | [] => addBot s .kMirror []

section Commands

variable [Platform]

def executeBotRemove (s : Server) (arg : Bytes) : Server × List Out :=
  if arg = ascii "all" then
    removeAllBots s.bots.length s
  else
    match stoul arg with
    | none => (s, [])
    | some id => (removeBot s (UInt32.ofNat id)).getD (s, [])

def executeBot (s : Server) (args : List Bytes) : Server × List Out :=
  match args with
  | sub :: rest =>
      if sub = ascii "add" then executeBotAdd s rest
      else if sub = ascii "remove" then
        match rest with
        | arg :: _ => executeBotRemove s arg
        | [] => (s, [])
      else (s, [])
  | [] => (s, [])

def executeSay (s : Server) (line : Bytes) : Server × List Out :=
  match line.idxOf? 0x20 with
  | none => (s, [])
  | some pos => (s, serverChat s (line.drop (pos + 1)))

/-- The reason of a kick: what follows the id and one more character, if any word does. -/
def kickReason (line : Bytes) (args : List Bytes) (idText : Bytes) : Option Bytes :=
  if args.length > 2 then
    (findSub idText line).bind fun pos => substr line (pos + idText.length + 1)
  else some (ascii "Kicked by server")

def executeKick (s : Server) (line : Bytes) (args : List Bytes) : Server × List Out :=
  match args with
  | _ :: idText :: _ =>
      match stoul idText with
      | none => (s, [])
      | some id =>
          match removeBot s (UInt32.ofNat id) with
          | some result => result
          | none =>
              match findPlayer s (UInt32.ofNat id) with
              | none => (s, [])
              | some entry =>
                  match kickReason line args idText with
                  | some reason => (s, kick entry.1 reason)
                  | none => (s, [])
  | _ => (s, [])

/-- `help`, `list` and unknown commands only print. -/
def executeCommand (s : Server) (line : Bytes) : Server × List Out :=
  match split line with
  | [] => (s, [])
  | cmd :: rest =>
      if cmd = ascii "bot" then executeBot s rest
      else if cmd = ascii "say" then executeSay s line
      else if cmd = ascii "kick" then executeKick s line (cmd :: rest)
      else (s, [])

end Commands

end F4MP.ServerConsole
