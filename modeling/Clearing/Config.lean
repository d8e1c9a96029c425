import Clearing.Address.Network
import Clearing.Text.Integer
import Clearing.Text.Quoted
import Clearing.Transfer.Basic

/-!
# Configuration

The service is configured by named variables. A variable that is blank counts
as unset. Only the webhook secret has to be set; a number has to be written as
one, and a number of seconds has to be at least one. Variables are checked in
a fixed order and the first fault is reported: secret, poll interval, back-off,
transfer policy with its interval and limit, port. The interval and limit are
not looked at unless transfers are retried.
-/

namespace Clearing

inductive Variable
  | dataDir
  | host
  | port
  | rpcUrl
  | rpcUser
  | rpcPass
  | network
  | webhookSecret
  | baseUrl
  | pollInterval
  | retryBackoff
  | transferPolicy
  | retryInterval
  | retryLimit
  | logFormat
deriving DecidableEq, Repr

def Variable.name : Variable → String
  | .dataDir => "DATA_DIR"
  | .host => "HOST"
  | .port => "PORT"
  | .rpcUrl => "BITCOIN_RPC_URL"
  | .rpcUser => "BITCOIN_RPC_USER"
  | .rpcPass => "BITCOIN_RPC_PASS"
  | .network => "BITCOIN_NETWORK"
  | .webhookSecret => "WEBHOOK_SECRET"
  | .baseUrl => "BASE_URL"
  | .pollInterval => "WATCH_POLL_INTERVAL_SECS"
  | .retryBackoff => "WATCH_RETRY_BACKOFF_SECS"
  | .transferPolicy => "TRANSFER_CONFIRMATION_POLICY"
  | .retryInterval => "TRANSFER_RETRY_INTERVAL_SECS"
  | .retryLimit => "TRANSFER_RETRY_MAX_ATTEMPTS"
  | .logFormat => "LOG_FORMAT"

inductive ConfigFault
  | missing (var : Variable)
  | invalid (var : Variable) (value reason : String)
deriving DecidableEq, Repr

def ConfigFault.variable : ConfigFault → Variable
  | .missing var => var
  | .invalid var _ _ => var

def ConfigFault.message : ConfigFault → String
  | .missing var => var.name ++ " must be set"
  | .invalid var value reason =>
    "invalid value " ++ Text.quote value ++ " for " ++ var.name ++ ": " ++ reason

inductive LogFormat
  | json
  | pretty
deriving DecidableEq, Repr

structure Config where
  dataDir : String
  host : String
  port : Nat
  rpcUrl : String
  rpcUser : String
  rpcPass : String
  network : Network
  webhookSecret : String
  baseUrl : String
  pollSeconds : Nat
  backoffSeconds : Nat
  pageSize : Nat
  policy : Policy
  logFormat : LogFormat
deriving DecidableEq, Repr

def Config.bindAddress (c : Config) : String :=
  c.host ++ ":" ++ toString c.port

abbrev Environment := String → Option String

namespace Environment

def get (env : Environment) (var : Variable) : Option String :=
  (env var.name).filter fun v => !Text.allBlank v

def number (env : Environment) (var : Variable) (limit : Nat) :
    Except ConfigFault (Option Nat) :=
  match env.get var with
  | none => .ok none
  | some raw =>
    match Text.natural? limit (Text.trimChars raw.toList) with
    | .ok n => .ok (some n)
    | .error e => .error (.invalid var raw e.message)

def seconds (env : Environment) (var : Variable) : Except ConfigFault (Option Nat) :=
  match env.number var (UInt64.size - 1) with
  | .error e => .error e
  | .ok (some 0) => .error (.invalid var "0" "must be at least 1 second")
  | .ok n => .ok n

/-- The transfer policy, retrying if none is named. -/
def policy (env : Environment) : Except ConfigFault Policy :=
  match (env.get .transferPolicy).map Text.trim with
  | some "fail_fast" => .ok .failFast
  | some other =>
    if other = "retry" then retrying
    else .error (.invalid .transferPolicy other "expected fail_fast or retry")
  | none => retrying
where
  retrying : Except ConfigFault Policy := do
    let interval ← env.seconds .retryInterval
    let limit ← env.number .retryLimit (UInt32.size - 1)
    return .retry (1000 * interval.getD 60) (limit.getD 60)

end Environment

def Config.load (env : Environment) : Except ConfigFault Config := do
  let webhookSecret ← match env.get .webhookSecret with
    | some secret => pure secret
    | none => .error (.missing .webhookSecret)
  let poll ← env.seconds .pollInterval
  let backoff ← env.seconds .retryBackoff
  let policy ← env.policy
  let port ← env.number .port (UInt16.size - 1)
  return {
    dataDir := (env.get .dataDir).getD "./data"
    host := (env.get .host).getD "0.0.0.0"
    port := port.getD 8080
    rpcUrl := (env.get .rpcUrl).getD "http://127.0.0.1:18334"
    rpcUser := (env.get .rpcUser).getD ""
    rpcPass := (env.get .rpcPass).getD ""
    network := ((env.get .network).map Network.ofName).getD .testnet
    webhookSecret
    baseUrl := Text.trimEndOf '/' ((env.get .baseUrl).getD "http://localhost:8080")
    pollSeconds := poll.getD 60
    backoffSeconds := backoff.getD 10
    pageSize := 10
    policy
    logFormat := if env.get .logFormat = some "json" then .json else .pretty }

end Clearing
