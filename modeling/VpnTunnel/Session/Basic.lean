import VpnTunnel.Key.Basic
import VpnTunnel.Text.Quoted

/-!
# Sessions

An authenticated session holds the tokens of a user and the private key registered for it. Times are
whole seconds of the Unix clock.
-/

namespace VpnTunnel

structure Session where
  id : String
  user : String
  accessToken : String
  refreshToken : String
  /-- When the access token expires. -/
  expiresAt : UInt64
  tunnelKey : Option PrivateKey
deriving DecidableEq

namespace Session

/-- How long before its expiry an access token is renewed, in seconds. -/
def renewalMargin : Nat := 300

/-- The latest time the clock can show. -/
def endOfTime : Nat := 2 ^ 64 - 1

def hasExpiredAt (s : Session) (now : UInt64) : Bool := s.expiresAt ≤ now

/-- Whether the access token expires within the margin. The end of the margin stops at the end of
time. -/
def isDueAt (s : Session) (now : UInt64) : Bool :=
  s.expiresAt.toNat ≤ min (now.toNat + renewalMargin) endOfTime

/-- A session knows the key of itself alone. -/
def keySource (s : Session) : KeySource := fun session =>
  match s.tunnelKey with
  | some key => if session = s.id then .ok key else .error (.unknownSession session)
  | none => .error (.unknownSession session)

/-- What is shown in place of a token. -/
def tokenBrief (token : String) : String :=
  "[" ++ toString token.utf8ByteSize ++ " chars]"

/-- The session as it is shown to a developer: of the tokens only their lengths in bytes, of the key
only its public half. -/
def brief (s : Session) : String :=
  let key := match s.tunnelKey with
    | some k => "Some(" ++ k.publicKey.brief ++ ")"
    | none => "None"
  "Session \x7b session_id: " ++ Text.quoted s.id ++
    ", user_id: " ++ Text.quoted s.user ++
    ", access_token: " ++ Text.quoted (tokenBrief s.accessToken) ++
    ", refresh_token: " ++ Text.quoted (tokenBrief s.refreshToken) ++
    ", expires_at: " ++ toString s.expiresAt.toNat ++
    ", vpn_key: " ++ key ++ " \x7d"

end Session

end VpnTunnel
