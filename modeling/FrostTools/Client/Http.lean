import FrostTools.Api
import FrostTools.Lib.Program

/-!
# What a client asks

The standard streams, the sockets and the server are the environment of a client.
Of what goes to `stderr`, the progress messages and the prompts without content are left out.
-/

namespace FrostTools.Client
open Api

inductive HttpRequest where
  | challenge
  | login (args : LoginArgs)
  | logout
  | createNewSession (args : CreateNewSessionArgs)
  | listSessions
  | getSessionInfo (args : GetSessionInfoArgs)
  | send (args : SendArgs)
  | receive (args : ReceiveArgs)
  | closeSession (args : CloseSessionArgs)
  deriving DecidableEq

@[reducible] def HttpRequest.Output : HttpRequest → Type
  | .challenge => Uuid
  | .login _ => Uuid
  | .logout => Unit
  | .createNewSession _ => Uuid
  | .listSessions => List Uuid
  | .getSessionInfo _ => GetSessionInfoOutput
  | .send _ => Unit
  | .receive _ => List Msg
  | .closeSession _ => Unit

inductive ClientError where
  | serverError (e : Api.Error)
  | connectionError
  | jsonError
  deriving DecidableEq

abbrev Endpoint := ℕ

inductive Query where
  | readLine
  | writeLine (line : String)
  | eprintln (line : String)
  /-- The next message of any connection. -/
  | socketRecv
  | socketSend (endpoint : Endpoint) (data : Bytes)
  | http (accessToken : Option Uuid) (request : HttpRequest)
  deriving DecidableEq

/-- `none` is an I/O error, or the end of the connections. -/
@[reducible] def Query.Answer : Query → Type
  | .readLine => Option String
  | .writeLine _ => Option Unit
  | .eprintln _ => Unit
  | .socketRecv => Option (Endpoint × Bytes)
  | .socketSend _ _ => Unit
  | .http _ request => Except ClientError request.Output

abbrev World : Interface := ⟨Query, Query.Answer⟩

end FrostTools.Client
