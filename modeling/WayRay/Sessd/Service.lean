import WayRay.Sessd.Login
import WayRay.Sockets.Service

/-!
# The launcher behind its socket

`wrsessd` as a service: its handler answers every request but the notice that a session has ended
(`isSome_handle`), which is sent as a notification.  So the greeter, the administrator and the
compositor, whose calls are all answered, are never kept waiting by one another
(`exists_drained`).
-/

namespace WayRay

namespace Sessd

open Service

variable (os : ℕ → Option String)

/-- Requests that get a response. -/
def Answers : LauncherRequest → Bool
  | .sessionLogout _ _ => false
  | _ => true

/-- The launcher as the handler of its socket; what it sees of its surroundings is the configuration
that is loaded. -/
def handler (loaded : Except SessionConfigError SessionConfig) (s : Sessd)
    (request : LauncherRequest) : Option LauncherResponse × Sessd :=
  s.handle os loaded request

theorem isSome_handle (loaded : Except SessionConfigError SessionConfig) (s : Sessd)
    (request : LauncherRequest) : (handler os loaded s request).1.isSome = Answers request := by
  cases request <;> rfl

/-- The launcher behind its socket goes through the requests as they arrive. -/
theorem stateAfter_handler (s : Sessd)
    (arrivals : List (Except SessionConfigError SessionConfig × LauncherRequest)) :
    stateAfter (handler os) s arrivals =
      (arrivals.map fun arrival => (⟨arrival.2, arrival.1⟩ : Arrival)).foldl (step os) s := by
  rw [stateAfter, List.foldl_map]
  rfl

/-- What the greeter sends is answered. -/
theorem answers_request {env : Env} {line : String} {request : LauncherRequest}
    (h : Wrlogin.request env line = some request) : Answers request = true := by
  simp only [Wrlogin.request] at h
  split_ifs at h
  rw [← Option.some.inj h]
  rfl

variable {os} {requests : JsonCodec LauncherRequest} {responses : JsonCodec LauncherResponse}

/-- **The launcher is not held up** by the programs that talk to it, as long as they send the end of
a session as a notification. -/
theorem exists_drained
    (events : List (ServiceEvent (Except SessionConfigError SessionConfig) LauncherRequest))
    {s : Service Sessd (Except SessionConfigError SessionConfig) LauncherRequest LauncherResponse}
    (hs : s = events.foldl (Service.step requests responses (handler os)) (start new))
    (hshut : s.OthersShut)
    (hcalls : ∀ token sessionId, ¬ s.Calls (.sessionLogout token sessionId)) :
    ∃ more : List (ServiceEvent (Except SessionConfigError SessionConfig) LauncherRequest),
      (∀ event ∈ more, Quiet event) ∧
        (more.foldl (Service.step requests responses (handler os)) s).Drained := by
  have hinv : s.Inv requests responses (handler os) new := hs ▸ inv_run new events
  have hconfig : Nonempty (Except SessionConfigError SessionConfig) := ⟨.ok .default⟩
  refine hinv.exists_drained (isSome_handle os) hshut fun request hcall => ?_
  cases request with
  | sessionLogout token sessionId => exact absurd hcall (hcalls token sessionId)
  | _ => rfl

end Sessd

end WayRay
