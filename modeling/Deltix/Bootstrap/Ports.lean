import Deltix.Bootstrap.SigningKeys
import Mathlib.Order.Bounds.Basic

/-
  The ports that a start settles on.

  A port is probed by binding it and letting it go again, so
  what one probe finds free is free for the next one too,
  also where both are for the same port.

  Key definitions include:
    * `checkPortAvailable`
    * `resolveServerPort`
    * `bootstrap`
    * `IsAllocation`
    * `ConflictFree`
    * `Clash`

  Key theorems include:
    * `gives_checkPortAvailable`
    * `ends_resolveServerPort`
    * `ends_allocatePorts`
    * `conflictFree_iff`
-/

------------------------------------------------------------
-- The Ports Of A Host
------------------------------------------------------------

namespace Bootstrap

namespace Ports

open Text

/- Which ports cannot be bound, being in use. -/
abbrev Occupied : Type :=
  Int → Bool

/- The `details` of an error about a port. -/
inductive PortDetails where
  | inUse (port : Int) (host : JsString)
  | noneFree
      (preferredPort : Int)
      (host : JsString)
      (maxAttempts : Nat)
  | grpcInUse (grpcPort : Int) (host : JsString)
  deriving DecidableEq, Repr

/- What a start throws: a diagnostic about its ports, or an
   error of its other work. -/
inductive Thrown (Other : Type) where
  | ports (report : DiagnosticReport) (details : PortDetails)
  | other (error : Other)
  deriving DecidableEq, Repr

abbrev PortProgram (Other : Type) : Type → Type :=
  ExceptT (Thrown Other) (StateM Occupied)

/- `Bun.listen`, which throws if the port is in use. -/
def listen (port : Int) (occupied : Occupied) : Option Occupied :=
  if occupied port then none
  else some (Function.update occupied port true)

/- `probe.stop(true)` -/
def stop (port : Int) (occupied : Occupied) : Occupied :=
  Function.update occupied port false

variable {Other : Type}

def checkPortAvailable (port : Int) : PortProgram Other Bool :=
  fun occupied =>
    match listen port occupied with
    | some bound => (.ok true, stop port bound)
    | none => (.ok false, occupied)

structure ResolvedPort where
  port : Int
  adjusted : Bool
  deriving DecidableEq, Repr

def portInUse (port : Int) (host : JsString) : Thrown Other :=
  .ports
    { title :=
        js "Port " ++ js (toString port) ++
          js " is already in use on " ++ host
      diagnosis :=
        js "Cannot bind to port " ++ js (toString port) ++
          js " because another process is actively " ++
          js "listening on this socket."
      action :=
        js "Stop the conflicting service on port " ++
          js (toString port) ++
          js ", choose a different port via " ++
          js "APP_PORT=<port>, or enable dynamic port " ++
          js "allocation via APP_DYNAMIC_PORT=true."
      code := js "ERR_PORT_IN_USE" }
    (.inUse port host)

def noAvailablePorts
    (preferredPort : Int)
    (host : JsString)
    (maxAttempts : Nat) : Thrown Other :=
  .ports
    { title :=
        js "No available ports found starting from " ++
          js (toString preferredPort)
      diagnosis :=
        js "Dynamic port scan probed " ++
          js (toString maxAttempts) ++
          js " consecutive ports starting at " ++
          js (toString preferredPort) ++ js " on " ++ host ++
          js ", but all were occupied."
      action :=
        js "Free up network ports on the host or specify " ++
          js "an explicit free port via APP_PORT=<port>."
      code := js "ERR_NO_AVAILABLE_PORTS" }
    (.noneFree preferredPort host maxAttempts)

def grpcPortInUse
    (grpcPort : Int)
    (host : JsString) : Thrown Other :=
  .ports
    { title :=
        js "gRPC port " ++ js (toString grpcPort) ++
          js " is already in use on " ++ host
      diagnosis :=
        js "Cannot bind gRPC service to port " ++
          js (toString grpcPort) ++
          js " because another process is actively listening."
      action :=
        js "Configure a different gRPC port via " ++
          js "APP_GRPC_PORT=<port> or stop the conflicting " ++
          js "service."
      code := js "ERR_GRPC_PORT_IN_USE" }
    (.grpcInUse grpcPort host)

/- An error is about a port. -/
def Thrown.OfPorts (error : Thrown Other) : Prop :=
  ∃ report details, error = .ports report details

theorem ofPorts_portInUse (port : Int) (host : JsString) :
    (portInUse port host : Thrown Other).OfPorts :=
  ⟨_, _, rfl⟩

theorem ofPorts_noAvailablePorts
    (preferredPort : Int)
    (host : JsString)
    (maxAttempts : Nat) :
    (noAvailablePorts preferredPort host maxAttempts :
      Thrown Other).OfPorts :=
  ⟨_, _, rfl⟩

theorem ofPorts_grpcPortInUse
    (grpcPort : Int)
    (host : JsString) :
    (grpcPortInUse grpcPort host : Thrown Other).OfPorts :=
  ⟨_, _, rfl⟩

/- The candidates from an offset on, so many at most. -/
def scanPorts
    (preferredPort : Int) :
    Nat → Nat → PortProgram Other (Option Int)
  | _, 0 => return none
  | offset, attempts + 1 => do
      let candidate := preferredPort + offset
      if candidate > 65535 then return none
      let available ← checkPortAvailable candidate
      if available then return some candidate
      scanPorts preferredPort (offset + 1) attempts

def resolveServerPort
    (preferredPort : Int)
    (host : JsString)
    (dynamicPort : Bool)
    (maxAttempts : Nat) : PortProgram Other ResolvedPort := do
  let isPreferredAvailable ← checkPortAvailable preferredPort
  if isPreferredAvailable then
    return { port := preferredPort, adjusted := false }
  if !dynamicPort then throw (portInUse preferredPort host)
  let found ← scanPorts preferredPort 1 maxAttempts
  match found with
  | some candidate =>
      return { port := candidate, adjusted := true }
  | none =>
      throw (noAvailablePorts preferredPort host maxAttempts)

open Config

structure AllocatedPorts where
  httpPort : Int
  grpcPort : Int
  httpPortAdjusted : Bool
  deriving DecidableEq, Repr

/- How the other work of a start ends. -/
structure OtherWork (Other : Type) where
  directories : Except Other Unit
  permissions : Except Other Unit
  keys : Except Other Unit
  database : Except Other Unit

def does {α : Type} : Except Other α → PortProgram Other α
  | .ok value => return value
  | .error error => throw (.other error)

def allocatePorts
    (skipPortCheck : Bool)
    (server : ServerConfig Int) :
    PortProgram Other AllocatedPorts := do
  let grpcPort := server.grpcPort
  if skipPortCheck then
    return {
      httpPort := server.port
      grpcPort := grpcPort
      httpPortAdjusted := false }
  let resolvedHttp ←
    resolveServerPort server.port server.host
      server.dynamicPort 50
  let isGrpcAvailable ← checkPortAvailable grpcPort
  if !isGrpcAvailable then
    throw (grpcPortInUse grpcPort server.host)
  return {
    httpPort := resolvedHttp.port
    grpcPort := grpcPort
    httpPortAdjusted := resolvedHttp.adjusted }

/- A start with the configuration that `loadConfig` has
   returned, and the `ports` of what it returns. -/
def bootstrap
    (options : BootstrapOptions)
    (loaded : AppConfig Int)
    (work : OtherWork Other) :
    PortProgram Other AllocatedPorts := do
  let config := resolved loaded options
  does work.directories
  does work.permissions
  let ports ← allocatePorts options.skipPortCheck config.server
  does work.keys
  if !options.skipDatabaseInit then does work.database
  return ports

------------------------------------------------------------
-- Probing
------------------------------------------------------------

variable {α β : Type} {occupied : Occupied}
variable {error : Thrown Other} {value : α}
variable {result : Except (Thrown Other) β}
variable {program : PortProgram Other α}
variable {next : α → PortProgram Other β} {low : Int}

/- A program ends so, and leaves the ports as they were. -/
def Gives
    (program : PortProgram Other α)
    (occupied : Occupied)
    (result : Except (Thrown Other) α) : Prop :=
  program.run.run occupied = (result, occupied)

theorem gives_pure :
    Gives (pure value : PortProgram Other α) occupied
      (.ok value) := rfl

theorem gives_throw :
    Gives (throw error : PortProgram Other α) occupied
      (.error error) := rfl

theorem gives_bind
    (hFirst : Gives program occupied (.ok value))
    (hNext : Gives (next value) occupied result) :
    Gives (program >>= next) occupied result := by
  unfold Gives at hFirst hNext ⊢
  rw [ExceptT.run_bind, StateT.run_bind, hFirst]
  exact hNext

theorem gives_bind_error
    (hFirst : Gives program occupied (.error error)) :
    Gives (program >>= next) occupied (.error error) := by
  unfold Gives at hFirst ⊢
  rw [ExceptT.run_bind, StateT.run_bind, hFirst]
  rfl

/- A probe tells whether a port is free, and no more. -/
theorem gives_checkPortAvailable (port : Int) :
    Gives (checkPortAvailable port : PortProgram Other Bool)
      occupied (.ok (!occupied port)) := by
  unfold Gives checkPortAvailable listen stop
  cases hPort : occupied port with
  | true => simp [ExceptT.run, StateT.run, hPort]
  | false =>
      have hBack :
          Function.update (Function.update occupied port true)
              port false = occupied := by
        rw [Function.update_idem, ← hPort,
          Function.update_eq_self]
      simp [ExceptT.run, StateT.run, hPort, hBack]

/- The free ones among so many ports from one on. -/
def freeFrom
    (occupied : Occupied)
    (low : Int)
    (count : Nat) : Set Int :=
  {port |
    low ≤ port ∧ port < low + count ∧ port ≤ 65535 ∧
      occupied port = false}

theorem freeFrom_zero (low : Int) :
    freeFrom occupied low 0 = ∅ := by
  ext port
  simp only [freeFrom, Set.mem_ofPred_eq,
    Set.mem_empty_iff_false, iff_false]
  omega

theorem freeFrom_of_large
    (count : Nat)
    (hLarge : 65535 < low) :
    freeFrom occupied low count = ∅ := by
  ext port
  simp only [freeFrom, Set.mem_ofPred_eq,
    Set.mem_empty_iff_false, iff_false]
  omega

/- An occupied port can be left out. -/
theorem freeFrom_succ_of_occupied
    (count : Nat)
    (hOccupied : occupied low = true) :
    freeFrom occupied low (count + 1) =
      freeFrom occupied (low + 1) count := by
  ext port
  simp only [freeFrom, Set.mem_ofPred_eq]
  have hOther : occupied port = false → port ≠ low := by
    intro hFree hSame
    rw [hSame, hOccupied] at hFree
    cases hFree
  constructor
  · rintro ⟨hLow, hHigh, hLimit, hFree⟩
    have hNe := hOther hFree
    refine ⟨?_, ?_, hLimit, hFree⟩
    · omega
    · omega
  · rintro ⟨hLow, hHigh, hLimit, hFree⟩
    refine ⟨?_, ?_, hLimit, hFree⟩
    · omega
    · omega

theorem isLeast_freeFrom
    (count : Nat)
    (hLimit : low ≤ 65535)
    (hFree : occupied low = false) :
    IsLeast (freeFrom occupied low (count + 1)) low := by
  constructor
  · refine ⟨?_, ?_, hLimit, hFree⟩
    · omega
    · omega
  · intro port hPort
    exact hPort.1

/- The scan finds the least port that is free, if any is. -/
theorem ends_scanPorts
    (Other : Type)
    (occupied : Occupied)
    (preferredPort : Int)
    (offset attempts : Nat) :
    (∃ candidate,
        Gives
            (scanPorts preferredPort offset attempts :
              PortProgram Other (Option Int))
            occupied (.ok (some candidate)) ∧
          IsLeast
            (freeFrom occupied (preferredPort + offset)
              attempts)
            candidate) ∨
      (Gives
          (scanPorts preferredPort offset attempts :
            PortProgram Other (Option Int))
          occupied (.ok none) ∧
        freeFrom occupied (preferredPort + offset) attempts =
          ∅) := by
  induction attempts generalizing offset with
  | zero =>
      right
      exact ⟨gives_pure, freeFrom_zero _⟩
  | succ attempts ih =>
      unfold scanPorts
      by_cases hLarge : preferredPort + (offset : Int) > 65535
      · right
        simp only [hLarge, if_true]
        exact ⟨gives_pure, freeFrom_of_large _ hLarge⟩
      · simp only [hLarge, if_false]
        cases hPort : occupied (preferredPort + offset) with
        | false =>
            left
            refine ⟨preferredPort + offset, ?_, ?_⟩
            · apply gives_bind (gives_checkPortAvailable _)
              rw [hPort]
              exact gives_pure
            · apply isLeast_freeFrom
              · omega
              · exact hPort
        | true =>
            have hNext :
                preferredPort + (offset : Int) + 1 =
                  preferredPort + ((offset + 1 : Nat) : Int) := by
              omega
            rw [freeFrom_succ_of_occupied _ hPort, hNext]
            rcases ih (offset + 1) with
              ⟨candidate, hFound, hLeast⟩ | ⟨hNone, hEmpty⟩
            · left
              refine ⟨candidate, ?_, hLeast⟩
              apply gives_bind (gives_checkPortAvailable _)
              rw [hPort]
              exact hFound
            · right
              refine ⟨?_, hEmpty⟩
              apply gives_bind (gives_checkPortAvailable _)
              rw [hPort]
              exact hNone

/- The port that is taken for HTTP. -/
def Found
    (occupied : Occupied)
    (preferredPort : Int)
    (dynamicPort : Bool)
    (maxAttempts : Nat)
    (port : Int) : Prop :=
  (occupied preferredPort = false ∧ port = preferredPort) ∨
    (occupied preferredPort = true ∧ dynamicPort = true ∧
      IsLeast
        (freeFrom occupied (preferredPort + 1) maxAttempts)
        port)

theorem ends_resolveServerPort
    (Other : Type)
    (occupied : Occupied)
    (preferredPort : Int)
    (host : JsString)
    (dynamicPort : Bool)
    (maxAttempts : Nat) :
    (∃ port adjusted,
        Gives
            (resolveServerPort preferredPort host dynamicPort
              maxAttempts : PortProgram Other ResolvedPort)
            occupied (.ok ⟨port, adjusted⟩) ∧
          Found occupied preferredPort dynamicPort maxAttempts
            port) ∨
      ((∃ error : Thrown Other,
          error.OfPorts ∧
            Gives
              (resolveServerPort preferredPort host dynamicPort
                maxAttempts)
              occupied (.error error)) ∧
        ∀ port,
          ¬ Found occupied preferredPort dynamicPort maxAttempts
            port) := by
  unfold resolveServerPort
  have hProbe :
      Gives
        (checkPortAvailable preferredPort :
          PortProgram Other Bool)
        occupied (.ok (!occupied preferredPort)) :=
    gives_checkPortAvailable _
  cases hPort : occupied preferredPort with
  | false =>
      rw [hPort] at hProbe
      left
      refine ⟨preferredPort, false, ?_, ?_⟩
      · exact gives_bind hProbe gives_pure
      · left
        exact ⟨hPort, rfl⟩
  | true =>
      rw [hPort] at hProbe
      cases dynamicPort with
      | false =>
          right
          constructor
          · refine ⟨_, ofPorts_portInUse preferredPort host, ?_⟩
            exact gives_bind hProbe gives_throw
          · rintro port (⟨hFree, _⟩ | ⟨_, hDynamic, _⟩)
            · rw [hPort] at hFree
              cases hFree
            · cases hDynamic
      | true =>
          have hFirst :
              preferredPort + 1 =
                preferredPort + ((1 : Nat) : Int) := rfl
          have hScanned :=
            ends_scanPorts Other occupied preferredPort 1
              maxAttempts
          rcases hScanned with
            ⟨candidate, hScan, hLeast⟩ | ⟨hScan, hEmpty⟩
          · left
            refine ⟨candidate, true, ?_, ?_⟩
            · apply gives_bind hProbe
              exact gives_bind hScan gives_pure
            · right
              exact ⟨hPort, rfl, hLeast⟩
          · right
            constructor
            · refine
                ⟨_,
                  ofPorts_noAvailablePorts preferredPort host
                    maxAttempts,
                  ?_⟩
              apply gives_bind hProbe
              exact gives_bind hScan gives_throw
            · rintro port (⟨hFree, _⟩ | ⟨_, _, hLeast⟩)
              · rw [hPort] at hFree
                cases hFree
              · have hMem := hLeast.1
                rw [hFirst, hEmpty] at hMem
                exact hMem

------------------------------------------------------------
-- Conflicts
------------------------------------------------------------

variable {server : ServerConfig Int} {http grpc : Int}

/- The two ports that a server is to be given. -/
structure IsAllocation
    (occupied : Occupied)
    (server : ServerConfig Int)
    (http grpc : Int) : Prop where
  distinct : http ≠ grpc
  httpFree : occupied http = false
  grpcFree : occupied grpc = false
  configured : grpc = server.grpcPort
  chosen :
    (occupied server.port = false ∧ http = server.port) ∨
      (occupied server.port = true ∧
        server.dynamicPort = true ∧
        IsLeast
          {port |
            server.port < port ∧ port ≤ server.port + 50 ∧
              port ≤ 65535 ∧ occupied port = false ∧
              port ≠ server.grpcPort}
          http)

/- The gRPC port is the first one that is free for HTTP. -/
def Clash
    (occupied : Occupied)
    (server : ServerConfig Int) : Prop :=
  occupied server.grpcPort = false ∧
    (server.port = server.grpcPort ∨
      (occupied server.port = true ∧
        server.dynamicPort = true ∧
        server.port < server.grpcPort ∧
        server.grpcPort ≤ server.port + 50 ∧
        server.grpcPort ≤ 65535 ∧
        ∀ port,
          server.port < port → port < server.grpcPort →
            occupied port = true))

/- What is taken for the HTTP port of a server. -/
abbrev FoundFor
    (occupied : Occupied)
    (server : ServerConfig Int)
    (http : Int) : Prop :=
  Found occupied server.port server.dynamicPort 50 http

theorem FoundFor.free (hFound : FoundFor occupied server http) :
    occupied http = false := by
  rcases hFound with ⟨hFree, hSame⟩ | ⟨_, _, hLeast⟩
  · rw [hSame]
    exact hFree
  · exact hLeast.1.2.2.2

theorem FoundFor.unique
    {other : Int}
    (hFound : FoundFor occupied server http)
    (hOther : FoundFor occupied server other) :
    http = other := by
  rcases hFound with ⟨hFree, hSame⟩ | ⟨hTaken, _, hLeast⟩
  · rcases hOther with ⟨_, hAlso⟩ | ⟨hTaken, _⟩
    · rw [hSame, hAlso]
    · rw [hFree] at hTaken
      cases hTaken
  · rcases hOther with ⟨hFree, _⟩ | ⟨_, _, hAlso⟩
    · rw [hFree] at hTaken
      cases hTaken
    · exact hLeast.unique hAlso

theorem clash_iff :
    Clash occupied server ↔
      FoundFor occupied server server.grpcPort := by
  constructor
  · rintro ⟨hFree, hSame |
      ⟨hTaken, hDynamic, hAbove, hNear, hLimit, hBetween⟩⟩
    · left
      rw [hSame]
      exact ⟨hFree, rfl⟩
    · right
      refine ⟨hTaken, hDynamic, ⟨?_, ?_, hLimit, hFree⟩, ?_⟩
      · omega
      · omega
      · rintro port ⟨hLow, _, _, hOther⟩
        by_contra hLess
        have hUsed := hBetween port (by omega) (by omega)
        rw [hOther] at hUsed
        cases hUsed
  · intro hFound
    refine ⟨hFound.free, ?_⟩
    rcases hFound with
      ⟨_, hSame⟩ | ⟨hTaken, hDynamic, hMem, hLeast⟩
    · left
      exact hSame.symm
    · right
      rcases hMem with ⟨hLow, hHigh, hLimit, _⟩
      refine ⟨hTaken, hDynamic, ?_, ?_, hLimit, ?_⟩
      · omega
      · omega
      · intro port hAbove hBelow
        cases hPort : occupied port with
        | true => rfl
        | false =>
            have hLe : server.grpcPort ≤ port := by
              apply hLeast
              refine ⟨?_, ?_, ?_, hPort⟩
              · omega
              · omega
              · omega
            omega

/- What is found is an allocation, if it is not the gRPC
   port. -/
theorem isAllocation_of_found
    (hFound : FoundFor occupied server http)
    (hGrpc : occupied server.grpcPort = false)
    (hOther : http ≠ server.grpcPort) :
    IsAllocation occupied server http server.grpcPort := by
  refine ⟨hOther, hFound.free, hGrpc, rfl, ?_⟩
  rcases hFound with hHere | ⟨hTaken, hDynamic, hMem, hLeast⟩
  · left
    exact hHere
  · right
    rcases hMem with ⟨hLow, hHigh, hLimit, hFree⟩
    refine
      ⟨hTaken, hDynamic, ⟨?_, ?_, hLimit, hFree, hOther⟩, ?_⟩
    · omega
    · omega
    · rintro port ⟨hAbove, hNear, hLimit, hPort, _⟩
      apply hLeast
      refine ⟨?_, ?_, hLimit, hPort⟩
      · omega
      · omega

/- Where there is an allocation, the scan finds a port. -/
theorem found_of_isAllocation
    (hAllocation : IsAllocation occupied server http grpc) :
    ∃ port, FoundFor occupied server port := by
  rcases hAllocation.chosen with
    hHere | ⟨hTaken, hDynamic, hMem, _⟩
  · exact ⟨server.port, Or.inl ⟨hHere.1, rfl⟩⟩
  · rcases hMem with ⟨hAbove, hNear, hLimit, hFree, _⟩
    rcases ends_scanPorts Unit occupied server.port 1 50 with
      ⟨port, _, hLeast⟩ | ⟨_, hEmpty⟩
    · exact ⟨port, Or.inr ⟨hTaken, hDynamic, hLeast⟩⟩
    · have hMem :
          http ∈
            freeFrom occupied (server.port + (1 : Nat)) 50 := by
        refine ⟨?_, ?_, hLimit, hFree⟩
        · omega
        · omega
      rw [hEmpty] at hMem
      exact hMem.elim

/- The port check ends well with the port that is found,
   and fails if there is none, or no port for gRPC. -/
theorem ends_allocatePorts
    (Other : Type)
    (occupied : Occupied)
    (server : ServerConfig Int)
    {skipPortCheck : Bool}
    (hCheck : skipPortCheck = false) :
    (∃ http adjusted,
        Gives
            (allocatePorts skipPortCheck server :
              PortProgram Other AllocatedPorts)
            occupied
            (.ok ⟨http, server.grpcPort, adjusted⟩) ∧
          FoundFor occupied server http ∧
          occupied server.grpcPort = false) ∨
      ((∃ error : Thrown Other,
          error.OfPorts ∧
            Gives (allocatePorts skipPortCheck server) occupied
              (.error error)) ∧
        ∀ http,
          FoundFor occupied server http →
            occupied server.grpcPort = true) := by
  subst hCheck
  unfold allocatePorts
  have hResolved :=
    ends_resolveServerPort Other occupied server.port
      server.host server.dynamicPort 50
  rcases hResolved with
    ⟨port, adjusted, hHttp, hFound⟩ |
    ⟨⟨error, hOfPorts, hHttp⟩, hNone⟩
  · have hProbe :
        Gives
          (checkPortAvailable server.grpcPort :
            PortProgram Other Bool)
          occupied (.ok (!occupied server.grpcPort)) :=
      gives_checkPortAvailable _
    cases hGrpc : occupied server.grpcPort with
    | false =>
        left
        rw [hGrpc] at hProbe
        refine ⟨port, adjusted, ?_, hFound, rfl⟩
        exact gives_bind hHttp (gives_bind hProbe gives_pure)
    | true =>
        right
        rw [hGrpc] at hProbe
        constructor
        · refine
            ⟨_,
              ofPorts_grpcPortInUse server.grpcPort server.host,
              ?_⟩
          exact gives_bind hHttp (gives_bind hProbe gives_throw)
        · intro http hOther
          rfl
  · right
    constructor
    · exact ⟨error, hOfPorts, gives_bind_error hHttp⟩
    · intro http hFound
      exact absurd hFound (hNone http)

theorem gives_does_ok {α : Type} (value : α) :
    Gives (does (.ok value) : PortProgram Other α) occupied
      (.ok value) := rfl

theorem gives_does_error {α : Type} (error : Other) :
    Gives (does (.error error) : PortProgram Other α) occupied
      (.error (.other error)) := rfl

/- A program ends so, unless the other work of the start
   fails. -/
def EndsAs
    {α : Type}
    (program : PortProgram Other α)
    (occupied : Occupied)
    (result : Except (Thrown Other) α) : Prop :=
  (∃ error, Gives program occupied (.error (.other error))) ∨
    Gives program occupied result

theorem endsAs_bind
    {α β : Type}
    {program : PortProgram Other α}
    {next : α → PortProgram Other β}
    {value : α}
    {result : Except (Thrown Other) β}
    (hFirst : Gives program occupied (.ok value))
    (hNext : EndsAs (next value) occupied result) :
    EndsAs (program >>= next) occupied result := by
  rcases hNext with ⟨error, hError⟩ | hResult
  · left
    exact ⟨error, gives_bind hFirst hError⟩
  · right
    exact gives_bind hFirst hResult

theorem endsAs_does
    {α β : Type}
    (step : Except Other α)
    {next : α → PortProgram Other β}
    {result : Except (Thrown Other) β}
    (hNext : ∀ value, EndsAs (next value) occupied result) :
    EndsAs (does step >>= next) occupied result := by
  cases step with
  | error error =>
      left
      exact ⟨error, gives_bind_error (gives_does_error error)⟩
  | ok value =>
      exact endsAs_bind (gives_does_ok value) (hNext value)

/- A start ends as its port check does, unless its other work
   fails. -/
theorem endsAs_bootstrap
    (options : BootstrapOptions)
    (loaded : AppConfig Int)
    (work : OtherWork Other)
    {result : Except (Thrown Other) AllocatedPorts}
    (hPorts :
      Gives
        (allocatePorts options.skipPortCheck
          (resolved loaded options).server)
        occupied result) :
    EndsAs (bootstrap options loaded work) occupied result := by
  unfold bootstrap
  apply endsAs_does
  intro _
  apply endsAs_does
  intro _
  cases result with
  | error error =>
      right
      exact gives_bind_error hPorts
  | ok ports =>
      apply endsAs_bind hPorts
      apply endsAs_does
      intro _
      cases hSkip : options.skipDatabaseInit with
      | true =>
          right
          exact gives_pure
      | false =>
          apply endsAs_does
          intro _
          right
          exact gives_pure

/- The other work of a start goes well. -/
def OtherWork.fine : OtherWork Other where
  directories := .ok ()
  permissions := .ok ()
  keys := .ok ()
  database := .ok ()

theorem gives_bootstrap_fine
    (options : BootstrapOptions)
    (loaded : AppConfig Int)
    {ports : AllocatedPorts}
    (hPorts :
      Gives
        (allocatePorts options.skipPortCheck
          (resolved loaded options).server :
          PortProgram Other AllocatedPorts)
        occupied (.ok ports)) :
    Gives
      (bootstrap options loaded
        (OtherWork.fine : OtherWork Other))
      occupied (.ok ports) := by
  unfold bootstrap
  apply gives_bind (gives_does_ok ())
  apply gives_bind (gives_does_ok ())
  apply gives_bind hPorts
  apply gives_bind (gives_does_ok ())
  cases options.skipDatabaseInit with
  | true => exact gives_pure
  | false => exact gives_bind (gives_does_ok ()) gives_pure

/- Whatever the other work of a start does, it returns an
   allocation or nothing, and does not fail for ports where
   there is one. -/
structure ConflictFree
    (Other : Type)
    (occupied : Occupied)
    (options : BootstrapOptions)
    (loaded : AppConfig Int) : Prop where
  allocated :
    ∀ (work : OtherWork Other) ports after,
      (bootstrap options loaded work).run.run occupied =
          (.ok ports, after) →
        IsAllocation occupied (resolved loaded options).server
          ports.httpPort ports.grpcPort
  started :
    (∃ http grpc,
        IsAllocation occupied (resolved loaded options).server
          http grpc) →
      ∀ (work : OtherWork Other) error after,
        (bootstrap options loaded work).run.run occupied =
            (.error error, after) →
          ¬ error.OfPorts

/- An error of the other work is not about a port. -/
theorem not_ofPorts_other (error : Other) :
    ¬ (Thrown.other error).OfPorts := by
  rintro ⟨report, details, hSame⟩
  cases hSame

/-
  A start with the port check on is free of conflicts unless
  the gRPC port is free and is the first such port for HTTP.
-/
theorem conflictFree_iff
    (Other : Type)
    (occupied : Occupied)
    (options : BootstrapOptions)
    (loaded : AppConfig Int)
    (hCheck : options.skipPortCheck = false) :
    ConflictFree Other occupied options loaded ↔
      ¬ Clash occupied (resolved loaded options).server := by
  have hEnds :=
    ends_allocatePorts Other occupied
      (resolved loaded options).server hCheck
  constructor
  · intro hConflictFree hClash
    have hBoth := clash_iff.mp hClash
    rcases hEnds with
      ⟨http, adjusted, hPorts, hFound, _⟩ | ⟨_, hNone⟩
    · have hStarted :=
        gives_bootstrap_fine options loaded hPorts
      have hAllocation :=
        hConflictFree.allocated _ _ _ hStarted
      exact hAllocation.distinct (hFound.unique hBoth)
    · have hTaken := hNone _ hBoth
      rw [hClash.1] at hTaken
      cases hTaken
  · intro hClear
    constructor
    · intro work ports after hRun
      rcases hEnds with
        ⟨http, adjusted, hPorts, hFound, hGrpc⟩ |
        ⟨⟨error, _, hPorts⟩, _⟩
      · have hOther :
            http ≠ (resolved loaded options).server.grpcPort := by
          intro hSame
          rw [hSame] at hFound
          exact hClear (clash_iff.mpr hFound)
        rcases endsAs_bootstrap options loaded work hPorts with
          ⟨error, hError⟩ | hReturned
        · cases hRun.symm.trans hError
        · cases hRun.symm.trans hReturned
          exact isAllocation_of_found hFound hGrpc hOther
      · rcases endsAs_bootstrap options loaded work hPorts with
          ⟨other, hError⟩ | hThrown
        · cases hRun.symm.trans hError
        · cases hRun.symm.trans hThrown
    · rintro ⟨http, grpc, hAllocation⟩ work error after hRun
      rcases found_of_isAllocation hAllocation with
        ⟨port, hFound⟩
      rcases hEnds with
        ⟨http, adjusted, hPorts, _, _⟩ | ⟨_, hNone⟩
      · rcases endsAs_bootstrap options loaded work hPorts with
          ⟨other, hError⟩ | hReturned
        · cases hRun.symm.trans hError
          exact not_ofPorts_other other
        · cases hRun.symm.trans hReturned
      · have hTaken := hNone port hFound
        have hFree := hAllocation.grpcFree
        rw [hAllocation.configured, hTaken] at hFree
        cases hFree

/- A server with a port of its own, from which it may move. -/
def movable (port : Int) : AppConfig Int :=
  { configured none none with
    server :=
      { (configured none none).server with
        port := port
        dynamicPort := true } }

/- The only port in use. -/
def onlyUsed (port : Int) : Occupied :=
  fun other => other == port

/- From 9090 on, the gRPC port is out of reach. -/
theorem conflictFree_from_9090 :
    ConflictFree Unit (onlyUsed 9090) plainStart
      (movable 9090) := by
  apply (conflictFree_iff Unit _ plainStart _ rfl).mpr
  rintro ⟨_, hSame | ⟨_, _, _, hNear, _⟩⟩
  · revert hSame
    decide
  · revert hNear
    decide

/- From 50050 on, the gRPC port is taken for HTTP too. -/
theorem not_conflictFree_from_50050 :
    ¬ ConflictFree Unit (onlyUsed 50050) plainStart
        (movable 50050) := by
  intro hConflictFree
  have hRun :
      ((bootstrap plainStart (movable 50050)
              (OtherWork.fine : OtherWork Unit)).run.run
            (onlyUsed 50050)).1 =
          .ok ⟨50051, 50051, true⟩ := rfl
  have hAllocation :=
    hConflictFree.allocated OtherWork.fine
      ⟨50051, 50051, true⟩ _ (Prod.ext hRun rfl)
  exact hAllocation.distinct rfl

end Ports

end Bootstrap
