import F4MP.ServerRun
import F4MP.ServerEffects
import F4MP.Handshake
import F4MP.Participants
import F4MP.Library.PartialView
import F4MP.Roster
import F4MP.Native
import F4MP.Relay
import F4MP.ServerAlike
import F4MP.Strangers
import F4MP.Interp
import F4MP.GameUtil
import F4MP.RemotePlayersModel
import F4MP.Clones
import F4MP.CloneAreas
import F4MP.NetClientModel
import F4MP.SessionModel
import F4MP.ClientRun
import F4MP.Chronicle
import F4MP.Delivery
import F4MP.Departures
import F4MP.Timeline
import F4MP.Connection
import F4MP.Reconnect
import F4MP.Prologue
import F4MP.ChatFlood
import F4MP.Snapshots
import F4MP.HashOrder
import F4MP.Malformed
import F4MP.FreshIds
import F4MP.ClientTurns
import F4MP.RemoteNames
import F4MP.SentNames
import F4MP.NameAgreement
import F4MP.Newest
import F4MP.Library.SpeedLimit
import F4MP.Sampling
import F4MP.Library.MinFilter
import F4MP.RenderTime
import F4MP.Turning
import F4MP.BotFollowing
import F4MP.Library.Trim
import F4MP.NameRules
import F4MP.ChatText
import F4MP.Library.Journal
import F4MP.ClonePostures
import F4MP.ClockOffset
import F4MP.ReaderSafety
import F4MP.Library.Occurrences
import F4MP.ServerAddress
import F4MP.IniModel
import F4MP.IniLayout
import F4MP.IniNumbers
import F4MP.ClientConfig
import F4MP.SkipCommands
import F4MP.ServerConfig
import F4MP.ConsoleText
import F4MP.ConsoleIds
import F4MP.SendingStates
import F4MP.ConsoleCommands
import F4MP.ConsoleLanguage
import F4MP.FormIds
import F4MP.Library.Deadlines
import F4MP.Library.Wires
import F4MP.PrologueEnd
import F4MP.ServerProgram
import F4MP.Speech
import F4MP.Welcomes
import F4MP.WorldModel
import F4MP.Likeness
import F4MP.Locomotion
import F4MP.OneOrder
import F4MP.Persistence
import F4MP.Retracing
