import F4MP.IniModel
import F4MP.Native

/-!
How the server comes by its settings: the INI file, with bounds on its numbers, and the
command line, whose port goes over the file's.
-/

namespace F4MP.ServerConfig

open F4MP.Types
open F4MP.ServerConsole
open F4MP.IniModel
open F4MP.Library.Decimal

structure Config where
  name : Bytes := ascii "F4MP Server"
  motd : Bytes := ascii "Welcome to the Commonwealth."
  port : UInt16 := 27015
  maxPlayers : UInt32 := 16
  tickRate : UInt32 := 30
  logFile : Bytes := ascii "server.log"
  logLevel : Bytes := ascii "info"
deriving DecidableEq

namespace Config

/-- `Config::Load`: whether there was a file to read, and the settings. -/
def load (cfg : Config) (file : Option Bytes) : Bool × Config :=
  match file with
  | none => (false, cfg)
  | some file =>
      let ini := IniModel.load file
      let server := ascii "Server"
      let logging := ascii "Logging"
      (true,
        { name := ini.get server (ascii "Name") cfg.name
          motd := ini.get server (ascii "Motd") cfg.motd
          port := UInt16.ofInt (clampInt (ini.getInt server (ascii "Port") cfg.port.toNat) 1 65535)
          maxPlayers := UInt32.ofInt
            (clampInt (ini.getInt server (ascii "MaxPlayers") cfg.maxPlayers.toNat) 1 4095)
          tickRate := UInt32.ofInt
            (clampInt (ini.getInt server (ascii "TickRate") cfg.tickRate.toNat) 1 240)
          logFile := ini.get logging (ascii "File") cfg.logFile
          logLevel := ini.get logging (ascii "Level") cfg.logLevel })

/-- What the server itself is given. -/
def server (cfg : Config) : ServerModel.Config where
  name := cfg.name
  motd := cfg.motd
  port := cfg.port
  maxPlayers := cfg.maxPlayers
  tickRate := cfg.tickRate

end Config

structure Arguments where
  configPath : Bytes := ascii "server.ini"
  portOverride : Option UInt16 := none
deriving DecidableEq

/-- What becomes of a command line: an exception ends the program, and so does the help. -/
inductive Outcome where
  | run (arguments : Arguments)
  | help
  | exception
deriving DecidableEq

section Launch

variable [Platform]

/-- `static_cast<std::uint16_t>(std::stoul(text))`, whitespace in front skipped. -/
def portArgument (text : Bytes) : Option UInt16 :=
  (stoul (text.dropWhile isSpace)).map UInt16.ofNat

def isHelp (arg : Bytes) : Bool := arg = ascii "--help" || arg = ascii "-h"
def isConfig (arg : Bytes) : Bool := arg = ascii "--config" || arg = ascii "-c"
def isPort (arg : Bytes) : Bool := arg = ascii "--port" || arg = ascii "-p"

def parseArguments : List Bytes → Arguments → Outcome
  | [], arguments => .run arguments
  | [arg], arguments => if isHelp arg then .help else .run arguments
  | arg :: value :: rest, arguments =>
      if isConfig arg then parseArguments rest { arguments with configPath := value }
      else if isPort arg then
        match portArgument value with
        | none => .exception
        | some port => parseArguments rest { arguments with portOverride := some port }
      else if isHelp arg then .help
      else parseArguments (value :: rest) arguments

/-- The settings the server is started with, if it is; `files` is what there is to open. -/
def launch (files : Bytes → Option Bytes) (argv : List Bytes) : Option Config :=
  match parseArguments argv {} with
  | .run arguments =>
      let config := (Config.load {} (files arguments.configPath)).2
      some { config with port := arguments.portOverride.getD config.port }
  | .help | .exception => none

end Launch

theorem toNat_port {v : Int} (hlow : 1 ≤ v) (hhigh : v ≤ 65535) :
    (UInt16.ofInt v).toNat = v.toNat := by
  rw [UInt16.ofInt, Int.emod_eq_of_lt (by omega) (by omega),
    UInt16.toNat_ofNat_of_lt' (show v.toNat < 65536 by omega)]

theorem toNat_rate {v : Int} (hlow : 1 ≤ v) (hhigh : v < 2 ^ 32) :
    (UInt32.ofInt v).toNat = v.toNat := by
  rw [UInt32.ofInt, Int.emod_eq_of_lt (by omega) (by omega),
    UInt32.toNat_ofNat_of_lt' (show v.toNat < 2 ^ 32 by omega)]

/-- The numbers of the file are in their ranges. -/
structure InBounds (config : Config) : Prop where
  port : 1 ≤ config.port.toNat
  maxPlayers : 1 ≤ config.maxPlayers.toNat ∧ config.maxPlayers.toNat ≤ 4095
  tickRate : 1 ≤ config.tickRate.toNat ∧ config.tickRate.toNat ≤ 240

theorem load_bounds (file : Option Bytes) : InBounds (Config.load {} file).2 := by
  cases file with
  | none => exact ⟨by decide, by decide, by decide⟩
  | some file =>
      have hport := clampInt_bounds (show (1 : Int) ≤ 65535 by decide)
        ((IniModel.load file).getInt (ascii "Server") (ascii "Port") ((27015 : UInt16).toNat))
      have hplayers := clampInt_bounds (show (1 : Int) ≤ 4095 by decide)
        ((IniModel.load file).getInt (ascii "Server") (ascii "MaxPlayers") ((16 : UInt32).toNat))
      have hrate := clampInt_bounds (show (1 : Int) ≤ 240 by decide)
        ((IniModel.load file).getInt (ascii "Server") (ascii "TickRate") ((30 : UInt32).toNat))
      constructor
      case port =>
          refine (toNat_port hport.1 hport.2).symm ▸ ?_
          omega
      case maxPlayers =>
          refine (toNat_rate hplayers.1 (by omega)).symm ▸ ?_
          omega
      case tickRate =>
          refine (toNat_rate hrate.1 (by omega)).symm ▸ ?_
          omega

section Launch

variable [Platform]

/-- The arguments `--port` takes, in order. -/
def portArguments : List Bytes → List Bytes
  | [] => []
  | [_] => []
  | arg :: value :: rest =>
      if isConfig arg then portArguments rest
      else if isPort arg then value :: portArguments rest
      else portArguments (value :: rest)

theorem parseArguments_port {argv : List Bytes} {arguments arguments' : Arguments}
    (hparse : parseArguments argv arguments = .run arguments') :
    (∀ arg ∈ portArguments argv, ∃ port, portArgument arg = some port) ∧
      arguments'.portOverride =
        (((portArguments argv).getLast?).bind portArgument).or arguments.portOverride := by
  induction argv using portArguments.induct generalizing arguments with
  | case1 =>
      cases hparse
      exact ⟨by simp [portArguments], rfl⟩
  | case2 arg =>
      rw [parseArguments] at hparse
      split at hparse
      next => cases hparse
      next =>
        cases hparse
        exact ⟨by simp [portArguments], rfl⟩
  | case3 arg value rest hconfig ih =>
      rw [parseArguments, if_pos hconfig] at hparse
      rw [portArguments, if_pos hconfig]
      have hrest := ih hparse
      exact hrest
  | case4 arg value rest hconfig hport ih =>
      rw [parseArguments, if_neg hconfig, if_pos hport] at hparse
      rw [portArguments, if_neg hconfig, if_pos hport]
      cases hvalue : portArgument value with
      | none =>
          rw [hvalue] at hparse
          cases hparse
      | some port =>
          rw [hvalue] at hparse
          obtain ⟨hread, hlast⟩ := ih hparse
          refine ⟨List.forall_mem_cons.mpr ⟨⟨port, hvalue⟩, hread⟩, ?_⟩
          rw [hlast, List.getLast?_cons]
          cases hgiven : (portArguments rest).getLast? with
          | none => simp [hvalue]
          | some given =>
              obtain ⟨port', hport'⟩ := hread given (List.mem_of_getLast? hgiven)
              simp [hport']
  | case5 arg value rest hconfig hport ih =>
      rw [parseArguments, if_neg hconfig, if_neg hport] at hparse
      rw [portArguments, if_neg hconfig, if_neg hport]
      split at hparse
      next => cases hparse
      next => exact ih hparse

/-- The settings are in range, every port asked for is the port it was turned into, and the
last of them is the one bound. -/
structure AsAsked (argv : List Bytes) (config : Config) : Prop extends InBounds config where
  whole : ∀ arg ∈ portArguments argv, ∃ port, portArgument arg = some port ∧ 1 ≤ port.toNat ∧
    Denotes arg port.toNat
  last : ∀ arg ∈ (portArguments argv).getLast?, Denotes arg config.port.toNat

/-- A port that is asked for as it should be. -/
def PortNumber (arg : Bytes) : Prop := ∃ n, Denotes arg n ∧ 1 ≤ n ∧ n ≤ 65535

theorem portArgument_of_denotes {arg : Bytes} {n : Nat} {port : UInt16} (hdenotes : Denotes arg n)
    (hn : n ≤ 65535) (hport : portArgument arg = some port) : port.toNat = n := by
  have hspace : arg.dropWhile isSpace = arg := by
    rw [List.dropWhile_eq_self_iff]
    intro hpos hspace
    obtain ⟨hlow, hhigh⟩ := hdenotes.digits _ (List.getElem_mem hpos)
    rw [isSpace_iff] at hspace
    omega
  rw [portArgument, hspace, stoul_of_denotes hdenotes] at hport
  split at hport
  next => cases hport
  next =>
    cases hport
    exact UInt16.toNat_ofNat_of_lt' (show n < 65536 by omega)

/-- A server that starts is as asked exactly if every port on its command line is the
number of a port. -/
theorem launch_as_asked {files : Bytes → Option Bytes} {argv : List Bytes} {config : Config}
    (hlaunch : launch files argv = some config) :
    AsAsked argv config ↔ ∀ arg ∈ portArguments argv, PortNumber arg := by
  rw [launch] at hlaunch
  split at hlaunch
  next arguments hparse =>
    cases hlaunch
    obtain ⟨hread, hoverride⟩ := parseArguments_port hparse
    rw [Option.or_none] at hoverride
    have hbounds := load_bounds (files arguments.configPath)
    generalize (Config.load {} (files arguments.configPath)).2 = loaded at hbounds
    constructor
    · intro hasked arg harg
      obtain ⟨port, -, hpositive, hdenotes⟩ := hasked.whole arg harg
      have hlt := port.toNat_lt
      exact ⟨port.toNat, hdenotes, hpositive, by omega⟩
    · intro hnumbers
      have hgiven : ∀ arg ∈ portArguments argv, ∃ port, portArgument arg = some port ∧
          1 ≤ port.toNat ∧ Denotes arg port.toNat := by
        intro arg harg
        obtain ⟨port, hport⟩ := hread arg harg
        obtain ⟨n, hdenotes, hlow, hhigh⟩ := hnumbers arg harg
        have hn := portArgument_of_denotes hdenotes hhigh hport
        exact ⟨port, hport, hn ▸ hlow, hn ▸ hdenotes⟩
      cases hlast : (portArguments argv).getLast? with
      | none =>
          rw [hlast, Option.bind_none] at hoverride
          refine ⟨⟨?_, hbounds.maxPlayers, hbounds.tickRate⟩, hgiven, ?_⟩
          · rw [hoverride]
            exact hbounds.port
          · rw [hlast]
            rintro arg ⟨⟩
      | some arg =>
          obtain ⟨port, hport, hpositive, hdenotes⟩ := hgiven arg (List.mem_of_getLast? hlast)
          rw [hlast, Option.bind_some, hport] at hoverride
          refine ⟨⟨?_, hbounds.maxPlayers, hbounds.tickRate⟩, hgiven, ?_⟩
          · rw [hoverride]
            exact hpositive
          · rw [hlast, hoverride]
            rintro other ⟨⟩
            exact hdenotes
  next => cases hlaunch
  next => cases hlaunch

end Launch

section Example

open F4MP.Native

def wrongPort : List Bytes := [ascii "--port", ascii "70000"]

/-- The server starts with another port than it was given. -/
theorem launch_other_port : ¬ ∀ (files : Bytes → Option Bytes) (argv : List Bytes) (config : Config),
    launch files argv = some config → AsAsked argv config := by
  intro h
  have hlaunch : launch (fun _ => none) wrongPort = some { port := 4464 } := by decide +kernel
  have hlast := (h (fun _ => none) wrongPort _ hlaunch).last (ascii "70000") (by decide +kernel)
  exact absurd hlast.value_eq (by decide +kernel)

theorem launch_given_port :
    AsAsked [ascii "--config", ascii "my.ini", ascii "--port", ascii "27016"] { port := 27016 } := by
  have hlaunch : launch (fun _ => none) [ascii "--config", ascii "my.ini", ascii "--port",
      ascii "27016"] = some { port := 27016 } := by decide +kernel
  refine (launch_as_asked hlaunch).mpr ?_
  have harguments : portArguments
      [ascii "--config", ascii "my.ini", ascii "--port", ascii "27016"] = [ascii "27016"] := by
    decide +kernel
  rw [harguments]
  exact List.forall_mem_singleton.mpr
    ⟨27016, ⟨by decide, by decide +kernel, by decide +kernel⟩, by decide, by decide⟩

end Example

end F4MP.ServerConfig
