import F4MP.ClientConfig
import F4MP.ClientRun
import F4MP.Printing

/-!
The console command of the client.  A line is taken apart by trimming it and cutting
words off its front; what it calls of the session and of the game comes out in order.
-/

namespace F4MP.ConsoleCommands

open F4MP.Types
open F4MP.Arith
open F4MP.GameUtil
open F4MP.ServerConsole
open F4MP.SessionModel
open F4MP.IniModel
open F4MP.ClientConfig
open F4MP.Printing

def nextToken (s : Bytes) : Bytes × Bytes :=
  let s := trim s
  (s.takeWhile fun c => !isSpace c, trim (s.dropWhile fun c => !isSpace c))

def iEquals (a b : Bytes) : Bool := lower a = lower b

/-- `f4mp`, `F4MP`, `player.f4mp`. -/
def isCommandToken (token : Bytes) : Bool :=
  let token :=
    match rfind 0x2E token with
    | some dot => token.drop (dot + 1)
    | none => token
  iEquals token (ascii "f4mp")

def quote : UInt8 := 0x22

def stripQuotes (s : Bytes) : Bytes :=
  trim (if s.length ≥ 2 && s.head? = some quote && s.getLast? = some quote then
    (s.drop 1).dropLast else s)

/-- The loop over the words of `graph`; `none` if it has not ended after `fuel` rounds. -/
def graphNames : Nat → Bytes → List Bytes → Option (List Bytes)
  | 0, _, _ => none
  | fuel + 1, remaining, names =>
      if remaining.isEmpty then some names
      else
        let (token, remaining) := nextToken remaining
        if token.isEmpty then some names else graphNames fuel remaining (names ++ [token])

/-- `std::from_chars` of a whole text, in base 16, into an `unsigned long`. -/
def fromCharsHex [Platform] (text : Bytes) : Option Nat :=
  let value := text.foldl (fun value c => value * 16 + hexDigitValue c) 0
  if text.isEmpty || !text.all isHexDigit || value > Platform.ulongMax then none else some value

/-- The text of a form id, with or without `0x`. -/
def stripHexMark (text : Bytes) : Bytes :=
  if text.length > 2 && (text.take 2 = ascii "0x" || text.take 2 = ascii "0X") then text.drop 2
  else text

inductive Call where
  | consolePrint (text : Bytes)
  | printStatus
  | setServer (hostPort : Bytes)
  | connect
  | disconnect
  | sendChat (text : Bytes)
  | printPlayers
  | setPlayerName (name : Bytes)
  | restorePlayerControl
  | printDebug
  | printGraph (names : List Bytes)
  | setCloneOption (option : Bytes) (on : Bool)
  | setCloneBase (form : Form)
deriving DecidableEq

def usage : List Call :=
  [ascii "F4MP v0.1.0 commands:",
    ascii "  f4mp status                  connection state",
    ascii "  f4mp connect [host[:port]]   connect, optionally to another server",
    ascii "  f4mp disconnect              leave the server (no auto-reconnect)",
    ascii "  f4mp say <text>              chat (quote very long messages: f4mp say \"...\")",
    ascii "  f4mp list                    players on the server",
    ascii "  f4mp name <name>             change your name",
    ascii "  f4mp unstick                 restore controls, HUD and camera after a menu froze you",
    ascii "  f4mp debug                   engine facts about every clone (3D, alpha, base record)",
    ascii "  f4mp graph [names...]        animation variables, you vs a clone; run it while moving",
    ascii "  f4mp clonebase <hex id>      NPC record to copy clones from (default 7), respawns them",
    ascii ("  f4mp sync|pacify|ghost|duplicate|move on|off   clone experiments; " ++
      "f4mp respawn recreates them")].map .consolePrint

section Commands

variable [Platform]

/-- The part of `Execute` for a command and its arguments. -/
def dispatch (session : Session) (cmd args : Bytes) : List Call :=
  if cmd.isEmpty || iEquals cmd (ascii "help") then usage
  else if iEquals cmd (ascii "status") then [.printStatus]
  else if iEquals cmd (ascii "connect") then
    if args.isEmpty then [.connect]
    else if (setServer session (stripQuotes args)).1 then
      [.setServer (stripQuotes args), .connect]
    else
      [.setServer (stripQuotes args),
        .consolePrint (ascii "[F4MP] Usage: f4mp connect [host[:port]]")]
  else if iEquals cmd (ascii "disconnect") then [.disconnect]
  else if iEquals cmd (ascii "say") then
    let text := stripQuotes args
    if text.isEmpty then [.consolePrint (ascii "[F4MP] Usage: f4mp say <text>")]
    else [.sendChat text]
  else if iEquals cmd (ascii "list") || iEquals cmd (ascii "players") then [.printPlayers]
  else if iEquals cmd (ascii "name") then
    let name := stripQuotes args
    if name.isEmpty then [.consolePrint (ascii "[F4MP] Usage: f4mp name <name>")]
    else [.setPlayerName name]
  else if iEquals cmd (ascii "unstick") then
    [.restorePlayerControl, .consolePrint (ascii "[F4MP] Controls, HUD and camera restored.")]
  else if iEquals cmd (ascii "debug") then [.printDebug]
  else if iEquals cmd (ascii "graph") then
    ((graphNames (args.length + 1) args []).map Call.printGraph).toList
  else if iEquals cmd (ascii "sync") || iEquals cmd (ascii "pacify") ||
      iEquals cmd (ascii "ghost") || iEquals cmd (ascii "duplicate") ||
      iEquals cmd (ascii "move") || iEquals cmd (ascii "respawn") then
    let word := (nextToken args).1
    let on := !(iEquals word (ascii "off") || iEquals word (ascii "0") ||
      iEquals word (ascii "false"))
    [.setCloneOption (lower cmd) on]
  else if iEquals cmd (ascii "clonebase") then
    match fromCharsHex (stripHexMark (stripQuotes args)) with
    | none =>
        [.consolePrint
          (ascii "[F4MP] Usage: f4mp clonebase <NPC form id in hex, e.g. 7 or A7D34>")]
    | some id => [.setCloneBase (UInt32.ofNat id)]
  else .consolePrint (ascii "[F4MP] Unknown command \"" ++ cmd ++ ascii "\"") :: usage

def execute (session : Session) (line : Bytes) : List Call :=
  let rest := trim line
  let (token, probe) := nextToken rest
  let rest := if isCommandToken token then probe else rest
  let (cmd, args) := nextToken rest
  dispatch session cmd args

end Commands

variable {D : Type}

/-- What a call is to the session, if it is one that can change it. -/
def Call.event (dial : NetClientModel.Dial) (now : ServerModel.Time) : Call → Option (Event D)
  | .setServer hostPort => some (.setServer hostPort)
  | .connect => some (.connect dial now)
  | .disconnect => some .disconnect
  | .sendChat text => some (.sendChat text)
  | .setPlayerName name => some (.setPlayerName name)
  | .setCloneOption option on => some (.setCloneOption option on)
  | .setCloneBase form => some (.setCloneBase form)
  | .consolePrint _ | .printStatus | .printPlayers | .restorePlayerControl | .printDebug
  | .printGraph _ => none

variable [CppFloat F32]

/-- The calls are made one after the other. -/
def perform (dial : NetClientModel.Dial) (now : ServerModel.Time) (session : Session) :
    List Call → Result D
  | [] => (session, [])
  | call :: calls =>
      (((call.event dial now).map (step session)).getD (session, [])).andThen fun session =>
        perform dial now session calls

end F4MP.ConsoleCommands
