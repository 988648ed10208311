import FrostTools.Client.Config
import FrostTools.Signing.Protocol

/-!
# The sessions of a user

What is shown of a session goes to `stderr` and is left out.
-/

namespace FrostTools.Sessions
open Client Signing

structure Args where
  config : Option String
  group : Option String
  serverUrl : Option String
  closeAll : Bool

/-- An error of the config, `?` included. -/
def ofConfig {α : Type} : Outcome ConfigError α → Outcome Failure α :=
  Outcome.mapErr fun
    | .eyre message => .eyre message
    | .library => .malformed

def serverUrl (config : Config) (args : Args) : Outcome Failure String :=
  match args.serverUrl, args.group with
  | some serverUrl, _ => .ok serverUrl
  | none, some group =>
    (Outcome.okOr (.eyre "Group not found") (config.group.lookup group)).bind fun group =>
      .okOr (.eyre "the group specified does not have an associated server URL") group.serverUrl
  | none, none => .err (.eyre "must specify either server_url or group")

/-- One turn of the loop over the sessions of the user. -/
def listSession (closeAll : Bool) (accessToken sessionId : Uuid) : Run Unit Unit := do
  let _ ← request (some accessToken) (.getSessionInfo ⟨sessionId⟩)
  if closeAll then request (some accessToken) (.closeSession ⟨sessionId⟩) else pure ()

def list {L : Libraries} (sign : Bytes → Uuid → Option Bytes) (fs : FileSystem L) (args : Args) :
    Run Unit Unit := do
  let config ← Method.lift (ofConfig (Config.read fs args.config))
  let _ ← Method.lift (serverUrl config args)
  let key ← Method.lift (.okOr (.eyre "user not initialized") config.communicationKey)
  let challenge ← request none .challenge
  let signature ← Method.lift (.okOr .malformed (sign key.privkey challenge))
  let accessToken ← request none (.login ⟨challenge, key.pubkey, signature⟩)
  let sessionIds ← request (some accessToken) .listSessions
  Method.foldM (fun () sessionId => listSession args.closeAll accessToken sessionId) () sessionIds

end FrostTools.Sessions
