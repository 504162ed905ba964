import F4MP.IniModel
import F4MP.SessionModel

/-!
The settings of a client and how they are read from its INI file: defaults, bounds, and
the list of commands that skip the prologue.  The path and the logging are left out.
-/

namespace F4MP.ClientConfig

open F4MP.Types
open F4MP.Arith
open F4MP.GameUtil
open F4MP.PrologueSkipModel
open F4MP.ServerConsole
open F4MP.IniModel

structure Config (F : Type) where
  host : Bytes := ascii "127.0.0.1"
  port : UInt16 := 27015
  autoConnect : Bool := true
  sendRate : UInt32 := 20
  interpDelayMs : F
  playerName : Bytes := []
  consoleMessages : Bool := true
  skipPrologue : Bool := true
  skipDelay : F
  podTimeout : F
  skipCommands : List Bytes := [ascii "setstage MQ101 900", ascii "removemusic 1A8676"]
  chargen : Bool := true
  chargenMode : Int32 := 0
  cloneBase : Form := 7

/-- `Config{}`. -/
def Config.initial (F : Type) [CppFloat F] : Config F where
  interpDelayMs := CppFloat.ofRat 100
  skipDelay := CppFloat.ofRat 2
  podTimeout := CppFloat.ofRat 120

def isBlank (c : UInt8) : Bool := c == 0x20 || c == 0x09

/-- `find(c, start)`. -/
def findFrom (c : UInt8) (s : Bytes) (start : Nat) : Option Nat :=
  ((s.drop start).idxOf? c).map fun offset => start + offset

/-- `find_first_not_of(" \t")`. -/
def findFirstNotBlank (s : Bytes) : Option Nat := s.findIdx? fun c => !isBlank c

/-- `find_last_not_of(" \t")`. -/
def findLastNotBlank (s : Bytes) : Option Nat :=
  (s.reverse.findIdx? fun c => !isBlank c).map fun fromEnd => s.length - 1 - fromEnd

/-- An item without the blanks around it, unless nothing is left. -/
def pushItem (commands : List Bytes) (item : Bytes) : List Bytes :=
  match findFirstNotBlank item, findLastNotBlank item with
  | some first, some last => commands ++ [(item.drop first).take (last - first + 1)]
  | _, _ => commands

/-- The loop over the items of a list: `none` if it has not ended after `fuel` rounds. -/
def splitCommands : Nat → Bytes → Nat → List Bytes → Option (List Bytes)
  | 0, _, _, _ => none
  | fuel + 1, list, start, commands =>
      if start ≤ list.length then
        let stop := (findFrom 0x3B list start).getD list.length
        let item := (list.drop start).take (stop - start)
        splitCommands fuel list (stop + 1) (pushItem commands item)
      else some commands

/-- More rounds than the loop can take. -/
def enoughRounds (list : Bytes) : Nat := list.length + 2

def network : Bytes := ascii "Network"
def newGame : Bytes := ascii "NewGame"

/-- `SkipCommands=cmd; cmd; wait 3; cmd`; an explicit empty value means no commands. -/
def skipCommandsOf (ini : Ini) (fallback : List Bytes) : Option (List Bytes) :=
  let list := ini.get newGame (ascii "SkipCommands") [0x01]
  if list ≠ [0x01] then splitCommands (enoughRounds list) list 0 [] else some fallback

def isHexDigit (c : UInt8) : Bool :=
  isDigit c || (0x41 ≤ c && c ≤ 0x46) || (0x61 ≤ c && c ≤ 0x66)

def hexDigitValue (c : UInt8) : Nat :=
  if isDigit c then c.toNat - 0x30 else (toLower c).toNat - 0x61 + 10

/-- `std::stoul(text, nullptr, 16)`: whitespace, a sign and `0x` are skipped, and what
follows the digits is ignored.  `none` is one of its two exceptions. -/
def stoulHex [Platform] (text : Bytes) : Option Nat :=
  let text := text.dropWhile isSpace
  let negative := text.head? = some 0x2D
  let rest := if negative ∨ text.head? = some 0x2B then text.drop 1 else text
  let prefixed := (rest.take 2).map toLower = ascii "0x" ∧ ((rest.drop 2).head?).any isHexDigit
  let digits := (if prefixed then rest.drop 2 else rest).takeWhile isHexDigit
  let value := digits.foldl (fun value c => value * 16 + hexDigitValue c) 0
  if digits.isEmpty || value > Platform.ulongMax then none
  else if negative then some ((Platform.ulongMax + 1 - value) % (Platform.ulongMax + 1))
  else some value

section Load

variable {F D : Type} [CppFloat F] [CppFloat D] [Widen F D] [Narrow D F] [FromCharsDouble D]
  [Platform]

/-- A `float` setting between two bounds. -/
def boundedFloat (ini : Ini) (sectionName key : Bytes) (fallback : F) (lo hi : D) : F :=
  Narrow.narrow (clamp (ini.getFloat sectionName key (Widen.widen fallback : D)) lo hi)

/-- `Config::Load`, of no file if there is none to open.  `none` would be a splitting loop
that does not end. -/
def load (D : Type) [CppFloat D] [Widen F D] [Narrow D F] [FromCharsDouble D]
    (file : Option Bytes) : Option (Config F) :=
  let cfg := Config.initial F
  match file with
  | none => some cfg
  | some file =>
      let ini := IniModel.load file
      let cloneBaseText := ini.get (ascii "Sync") (ascii "CloneBase") []
      (skipCommandsOf ini cfg.skipCommands).map fun skipCommands =>
        { host := ini.get network (ascii "Host") cfg.host
          port := UInt16.ofInt (clampInt (ini.getInt network (ascii "Port") cfg.port.toNat) 1 65535)
          autoConnect := ini.getBool network (ascii "AutoConnect") cfg.autoConnect
          sendRate := UInt32.ofInt
            (clampInt (ini.getInt network (ascii "SendRate") cfg.sendRate.toNat) 1 60)
          interpDelayMs := boundedFloat (D := D) ini network (ascii "InterpDelayMs")
            cfg.interpDelayMs (CppFloat.ofRat 0) (CppFloat.ofRat 1000)
          playerName := ini.get (ascii "Player") (ascii "Name") cfg.playerName
          consoleMessages := ini.getBool (ascii "Debug") (ascii "ConsoleMessages") cfg.consoleMessages
          skipPrologue := ini.getBool newGame (ascii "SkipPrologue") cfg.skipPrologue
          skipDelay := boundedFloat (D := D) ini newGame (ascii "SkipDelay") cfg.skipDelay
            (CppFloat.ofRat 0) (CppFloat.ofRat 60)
          podTimeout := boundedFloat (D := D) ini newGame (ascii "PodTimeout") cfg.podTimeout
            (CppFloat.ofRat 5) (CppFloat.ofRat 600)
          skipCommands
          chargen := ini.getBool newGame (ascii "Chargen") cfg.chargen
          chargenMode := Int32.ofInt
            (clampInt (ini.getInt newGame (ascii "ChargenMode") cfg.chargenMode.toInt) 0 1)
          cloneBase :=
            if cloneBaseText ≠ [] then ((stoulHex cloneBaseText).map UInt32.ofNat).getD cfg.cloneBase
            else cfg.cloneBase }

/-- The settings a session starts with. -/
def Config.session (cfg : Config F32) : SessionModel.Config where
  host := cfg.host
  port := cfg.port
  autoConnect := cfg.autoConnect
  sendRate := cfg.sendRate
  interpDelayMs := cfg.interpDelayMs
  playerName := cfg.playerName
  cloneBase := cfg.cloneBase

/-- The settings `Init` hands to the prologue skip. -/
def Config.skip (cfg : Config F) : PrologueSkipModel.Settings F where
  enabled := cfg.skipPrologue
  startDelay := cfg.skipDelay
  podTimeout := cfg.podTimeout
  commands := cfg.skipCommands
  chargen := cfg.chargen
  chargenMode := cfg.chargenMode

end Load

end F4MP.ClientConfig
