import VpnTunnel.Engine

/-!
# Tunnel states

What a user sees of a tunnel, and which failures another attempt may overcome: what is wrong with
the input of an attempt stays wrong until the input changes.
-/

namespace VpnTunnel

/-- Why an attempt failed, as far as it is shown. -/
inductive FailureKind where
  | generic
  | otherUser
  | noEntry
  | noPeerKey
  | noPrivateKey
  | badObfuscation
  | badConfig
deriving DecidableEq, Repr

namespace FailureKind

def name : FailureKind → String
  | generic => "GenericError"
  | otherUser => "MultiUserPermission"
  | noEntry => "MissingEntryIp"
  | noPeerKey => "MissingPeerKey"
  | noPrivateKey => "MissingPrivateKey"
  | badObfuscation => "InvalidObfuscation"
  | badConfig => "InvalidConfig"

def ofConfigError : ConfigError → FailureKind
  | .noEntry => noEntry
  | .noPeerKey => noPeerKey
  | .noPrivateKey => noPrivateKey
  | .badObfuscation _ => badObfuscation
  | .badKey _ => badConfig
  | .parse _ _ => badConfig

end FailureKind

inductive TunnelStatus where
  | disconnected
  | connecting
  | connected
  /-- A failure is final if no other attempt makes sense before the user has done something. -/
  | failed (kind : FailureKind) (final : Bool)
  | disabled
deriving DecidableEq, Repr

namespace TunnelStatus

def isConnected (s : TunnelStatus) : Bool := s == connected

def isFailure : TunnelStatus → Bool
  | failed _ _ => true
  | _ => false

def isFinal : TunnelStatus → Bool
  | failed _ final => final
  | _ => false

/-- A failure of which nothing better is known. -/
def unexplained : TunnelStatus := failed .generic false

/-- What the state of the interface means for the tunnel. -/
def ofLink : LinkState → TunnelStatus
  | .up => connected
  | .down => disabled
  | .toggle => connecting

def ofReport : EngineReport → TunnelStatus
  | .state s => ofLink s
  | .unknown _ => unexplained

def ofConfigError (e : ConfigError) : TunnelStatus := failed (.ofConfigError e) true

/-- The state after an engine has failed for good. -/
def ofEngineFailure : EngineFailure → TunnelStatus
  | .otherUser => failed .otherUser true
  | .timedOut | .other _ | .crashed => unexplained

def toString : TunnelStatus → String
  | disconnected => "disconnected"
  | connecting => "connecting"
  | connected => "connected"
  | failed kind final => "error (" ++ kind.name ++ (if final then ", final" else "") ++ ")"
  | disabled => "disabled"

end TunnelStatus

/-- Why a call of a machine failed. -/
inductive CallFailure where
  | config (e : ConfigError)
  | engine (e : EngineFailure)
deriving DecidableEq, Repr

namespace CallFailure

def message : CallFailure → String
  | config e => "Config error: " ++ e.message
  | engine e => "Engine error: " ++ e.message

/-- The state that a failure is shown as. -/
def state : CallFailure → TunnelStatus
  | config e => .ofConfigError e
  | engine e => .ofEngineFailure e

end CallFailure

end VpnTunnel
