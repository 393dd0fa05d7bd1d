import WayRay.Network.Classify
import WayRay.Protocol.Codec

/-!
# What a probe learns

What the acceptor does with a connection once its first message has been classified: the bytes it
writes on the control stream, how it closes the connection, and whether it routes it to the client
handler.

Two servers of one configuration differ in the load and the tokens they have published.  To a peer
that does not present a configured secret they look the same.
-/

namespace WayRay

/-- Close code for a protocol version mismatch. -/
def versionMismatchCode : ℕ := 1

/-- A connection close with its code and reason. -/
structure CloseFrame where
  code : ℕ
  reason : String
deriving DecidableEq

namespace Classified

/-- The message written on the control stream. -/
def reply : Classified → Option ControlMessage
  | .answered msg => some msg
  | .rejected error => some (.protocolError error)
  -- a probe without the secret is not even refused
  | .client _ | .refused | .failed => none

/-- The bytes written on the control stream. -/
def bytesWritten (pc : Postcard ControlMessage) (c : Classified) : Bytes :=
  (c.reply.bind pc.encode).getD []

/-- How the server closes the connection. -/
def closeFrame : Classified → Option CloseFrame
  | .rejected error => some ⟨versionMismatchCode, error.reason⟩
  | .client _ | .answered _ | .refused | .failed => none

/-- The hello that `accept_loop` routes to the client handler. -/
def routed : Classified → Option ClientHello
  | .client hello => some hello
  | .answered _ | .rejected _ | .refused | .failed => none

end Classified

/-- The secret that a peer probe presents. -/
def ControlMessage.auth : ControlMessage → Option String
  | .serverInfoRequest auth => some auth
  | .sessionLookupRequest _ auth => some auth
  | _ => none

/-- A probe is answered only if it presents a configured secret that is not empty. -/
theorem peerAuthenticated_iff {secret auth : String} :
    peerAuthenticated secret auth = true ↔ secret ≠ "" ∧ auth = secret := by
  simp [peerAuthenticated]

/-- Without the secret, neither the load nor the tokens have a part in the classification. -/
theorem classifyConnection_congr {config : ServerConfig} {msg : ControlMessage}
    (h : config.clusterSecret = "" ∨ msg.auth ≠ some config.clusterSecret) (load load' : UInt32)
    (tokens tokens' : List String) :
    classifyConnection config load tokens msg = classifyConnection config load' tokens' msg := by
  have hrefused : ∀ auth, msg.auth = some auth →
      peerAuthenticated config.clusterSecret auth = false := by
    intro auth hauth
    rw [← Bool.not_eq_true, peerAuthenticated_iff]
    rintro ⟨hsecret, rfl⟩
    exact h.elim hsecret fun hne => hne hauth
  cases msg with
  | serverInfoRequest auth | sessionLookupRequest _ auth =>
    have hauth := hrefused auth rfl
    simp only [classifyConnection, hauth]
    rfl
  | _ => rfl

/-- A connection is routed exactly if it begins with the hello of a supported version. -/
theorem routed_classifyConnection_iff {config : ServerConfig} {load : UInt32} {tokens : List String}
    {msg : ControlMessage} {hello : ClientHello} :
    (classifyConnection config load tokens msg).routed = some hello ↔
      msg = .clientHello hello ∧ versionCompatible hello.version = true := by
  cases msg with
  | clientHello hello' =>
    simp only [classifyConnection, ControlMessage.clientHello.injEq]
    split_ifs with hversion
    · constructor
      · intro h
        obtain rfl := Option.some.inj h
        exact ⟨rfl, hversion⟩
      · rintro ⟨rfl, -⟩
        rfl
    · constructor
      · exact fun h => absurd h (by simp [Classified.routed])
      · rintro ⟨rfl, h⟩
        exact absurd h hversion
  | serverInfoRequest auth | sessionLookupRequest _ auth =>
    simp only [classifyConnection]
    split_ifs <;> simp [Classified.routed]
  | _ => simp [classifyConnection, Classified.routed]

/-- **Probes learn nothing.**  Two servers that differ in their load and their tokens only write the
same bytes on a connection whose first message does not present the configured secret, and close it
alike; such a connection is routed to the client handler only if that message is the hello of a
client of a supported version.  Without a configured secret this is so for every first message. -/
theorem probe_noninterference (pc : Postcard ControlMessage) (config : ServerConfig)
    (load load' : UInt32) (tokens tokens' : List String) (msg : ControlMessage)
    (h : config.clusterSecret = "" ∨ msg.auth ≠ some config.clusterSecret) :
    let here := classifyConnection config load tokens msg
    let there := classifyConnection config load' tokens' msg
    here.bytesWritten pc = there.bytesWritten pc ∧ here.closeFrame = there.closeFrame ∧
      (∀ hello, here.routed = some hello →
        msg = .clientHello hello ∧ versionCompatible hello.version = true) ∧
      here.routed = there.routed := by
  intro here there
  have hsame : here = there := classifyConnection_congr h load load' tokens tokens'
  rw [hsame]
  exact ⟨rfl, rfl, fun hello hrouted => routed_classifyConnection_iff.mp hrouted, rfl⟩

/-- A lookup with a wrong secret, and one where none is configured. -/
theorem probe_noninterference_lookup :
    ((classifyConnection ⟨"a", 50, "s"⟩ 0 ["t"] (.sessionLookupRequest "t" "x")).bytesWritten
        Postcard.smallAcks =
      (classifyConnection ⟨"a", 50, "s"⟩ 7 [] (.sessionLookupRequest "t" "x")).bytesWritten
        Postcard.smallAcks) ∧
    ((classifyConnection ⟨"a", 50, ""⟩ 0 ["t"] (.sessionLookupRequest "t" "")).bytesWritten
        Postcard.smallAcks =
      (classifyConnection ⟨"a", 50, ""⟩ 7 [] (.sessionLookupRequest "t" "")).bytesWritten
        Postcard.smallAcks) :=
  ⟨(probe_noninterference Postcard.smallAcks ⟨"a", 50, "s"⟩ 0 7 ["t"] []
      (.sessionLookupRequest "t" "x") (.inr (by decide))).1,
    (probe_noninterference Postcard.smallAcks ⟨"a", 50, ""⟩ 0 7 ["t"] []
      (.sessionLookupRequest "t" "") (.inl rfl)).1⟩

/-- The secret is what it takes: with it, a lookup tells whether the token is published. -/
theorem reply_lookup_ne {config : ServerConfig} (hsecret : config.clusterSecret ≠ "")
    {load load' : UInt32} {tokens tokens' : List String} {token : String}
    (hhosts : tokens.contains token ≠ tokens'.contains token) :
    (classifyConnection config load tokens
        (.sessionLookupRequest token config.clusterSecret)).reply ≠
      (classifyConnection config load' tokens'
        (.sessionLookupRequest token config.clusterSecret)).reply := by
  have hauth : peerAuthenticated config.clusterSecret config.clusterSecret = true :=
    peerAuthenticated_iff.mpr ⟨hsecret, rfl⟩
  simp only [classifyConnection, hauth, if_true, Classified.reply]
  intro h
  injection h with h
  injection h with h
  injection h with _ h
  exact hhosts h

end WayRay
