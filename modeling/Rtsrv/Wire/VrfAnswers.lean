import Rtsrv.Lib.Collect
import Rtsrv.Wire.RouteInstall

/-!
# Rtsrv.Wire.VrfAnswers — the answers of a VRF request on the wire (`cmd_proto.cpp`)

`handle_vrfs_route_request` over an arbitrary `netlink::add_route`: what it returns is up to the kernel, and
a failure stops neither loop.  The answers are those of the single VRFs, and they reach the client unchanged.
-/

namespace Rtsrv.Netlink

open Lib CmdProto

/-! ### The handler over any `add_route` -/

section Handler

variable {ε σ : Type} (add_route : RouteAddParams → σ → Except ε Unit × σ)

/-- One round of the inner loop. -/
def installPrefixBy (vr : VrfsRequest) : Bool × σ → PrefixIpv4 → Bool × σ :=
  attemptFlag fun pfx => add_route (routeParams vr pfx)

/-- One round of the outer loop. -/
def installVrfBy (s : VrfsRouteResponse × σ) (vr : VrfsRequest) : VrfsRouteResponse × σ :=
  let (vrf_ok, world) := vr.prefixes.foldl (installPrefixBy add_route vr) (true, s.2)
  ({ status_code := if vrf_ok then s.1.status_code else 0x01
     answers := s.1.answers ++ [{ vrfs_name := vr.vrfs_name, prefix_status := vrf_ok }] }, world)

def handleVrfsRouteRequestBy (world : σ) (req : VrfsRouteRequest) : VrfsRouteResponse × σ :=
  req.vrfs_requests.foldl (installVrfBy add_route) ({ status_code := 0x00, answers := [] }, world)

end Handler

/-- `add_route` on the routes of the kernel. -/
def kernelAddRoute (if_nametoindex : CString → Option UInt32) (params : RouteAddParams) (kernel : Kernel) :
    Except RouteError Unit × Kernel :=
  match addRoute if_nametoindex kernel params with
  | .ok kernel' => (.ok (), kernel')
  | .error e => (.error e, kernel)

theorem installPrefix_eq (if_nametoindex : CString → Option UInt32) (vr : VrfsRequest) :
    installPrefix if_nametoindex vr = installPrefixBy (kernelAddRoute if_nametoindex) vr := by
  funext s pfx
  rw [installPrefix, installPrefixBy, attemptFlag_eq, kernelAddRoute]
  cases addRoute if_nametoindex s.2 (routeParams vr pfx) with
  | error e => simp [Except.isOk, Except.toBool]
  | ok kernel' => simp [Except.isOk, Except.toBool]

/-- The handler on the routes of the kernel is one of these. -/
theorem handleVrfsRouteRequest_eq (if_nametoindex : CString → Option UInt32) (kernel : Kernel)
    (req : VrfsRouteRequest) : handleVrfsRouteRequest if_nametoindex kernel req =
      handleVrfsRouteRequestBy (kernelAddRoute if_nametoindex) kernel req := by
  have hround : installVrf if_nametoindex = installVrfBy (kernelAddRoute if_nametoindex) := by
    funext s vr
    rw [installVrf, installVrfBy, installPrefix_eq]
  rw [handleVrfsRouteRequest, handleVrfsRouteRequestBy, hround]

/-! ### What `add_route` returns -/

/-- An entry with what `add_route` returned for each of its prefixes. -/
structure VrfOutcome (ε : Type) where
  vr : VrfsRequest
  results : List (Except ε Unit)
  length_eq : results.length = vr.prefixes.length

/-- All prefixes of the entry were installed. -/
def VrfOutcome.Installed {ε : Type} (o : VrfOutcome ε) : Prop := ∀ result ∈ o.results, result = .ok ()

def VrfOutcome.answer {ε : Type} (o : VrfOutcome ε) : VrfsAnswer where
  vrfs_name := o.vr.vrfs_name
  prefix_status := o.results.all Except.isOk

theorem VrfOutcome.answer_status {ε : Type} (o : VrfOutcome ε) :
    o.answer.prefix_status = true ↔ o.Installed := by
  rw [VrfOutcome.answer, List.all_eq_true]
  refine forall₂_congr fun result _ => ?_
  cases result with
  | error e => simp [Except.isOk, Except.toBool]
  | ok u => simp [Except.isOk, Except.toBool]

section Outcomes

variable {ε σ : Type} (add_route : RouteAddParams → σ → Except ε Unit × σ)

/-- The calls of `add_route` for the prefixes of an entry. -/
def prefixResults (vr : VrfsRequest) : σ → List (Except ε Unit) × σ :=
  attempts (fun pfx => add_route (routeParams vr pfx)) vr.prefixes

def outcome (vr : VrfsRequest) (world : σ) : VrfOutcome ε where
  vr := vr
  results := (prefixResults add_route vr world).1
  length_eq := length_attempts _ _ _

/-- The calls for some entries, one after the other. -/
def outcomes : List VrfsRequest → σ → List (VrfOutcome ε)
  | [], _ => []
  | vr :: vrs, world => outcome add_route vr world :: outcomes vrs (prefixResults add_route vr world).2

theorem outcomes_entries : ∀ (vrs : List VrfsRequest) (world : σ),
    (outcomes add_route vrs world).map VrfOutcome.vr = vrs
  | [], _ => rfl
  | vr :: vrs, world => by
    rw [outcomes, List.map_cons, outcomes_entries vrs]
    rfl

end Outcomes

/-- An `add_route` that returns what it is given, one result after the other. -/
def scripted {ε : Type} (_ : RouteAddParams) : List (Except ε Unit) → Except ε Unit × List (Except ε Unit)
  | [] => (.ok (), [])
  | result :: script => (result, script)

theorem attempts_scripted {ε α : Type} (params : α → RouteAddParams) : ∀ (as : List α)
    (results script : List (Except ε Unit)), results.length = as.length →
      attempts (fun a => scripted (params a)) as (results ++ script) = (results, script)
  | [], results, script, hlen => by
    rw [List.length_eq_zero_iff.mp hlen]
    rfl
  | a :: as, results, script, hlen => by
    obtain ⟨result, results, rfl⟩ := List.exists_cons_of_length_eq_add_one hlen
    rw [List.cons_append, attempts, scripted, attempts_scripted params as results script (Nat.succ.inj hlen)]

theorem prefixResults_scripted {ε : Type} (o : VrfOutcome ε) (script : List (Except ε Unit)) :
    prefixResults scripted o.vr (o.results ++ script) = (o.results, script) :=
  attempts_scripted (routeParams o.vr) o.vr.prefixes o.results script o.length_eq

/-- Every sequence of outcomes is one of some `add_route`. -/
theorem outcomes_scripted {ε : Type} : ∀ outs : List (VrfOutcome ε),
    outcomes scripted (outs.map VrfOutcome.vr) (outs.flatMap VrfOutcome.results) = outs
  | [] => rfl
  | o :: outs => by
    rw [List.map_cons, List.flatMap_cons, outcomes, prefixResults_scripted, outcomes_scripted outs, outcome]
    simp only [prefixResults_scripted]

/-! ### The calls of a request -/

/-- The prefixes of a VRF request with their entries, in the order of the calls. -/
def vrfCalls (req : VrfsRouteRequest) : List (VrfsRequest × PrefixIpv4) :=
  req.vrfs_requests.flatMap fun vr => vr.prefixes.map (Prod.mk vr)

theorem mem_vrfCalls {req : VrfsRouteRequest} {c : VrfsRequest × PrefixIpv4} :
    c ∈ vrfCalls req ↔ c.1 ∈ req.vrfs_requests ∧ c.2 ∈ c.1.prefixes := by
  rcases c with ⟨vr, pfx⟩
  simp only [vrfCalls, List.mem_flatMap, List.mem_map, Prod.mk.injEq]
  constructor
  · rintro ⟨_, hvr, _, hpfx, rfl, rfl⟩
    exact ⟨hvr, hpfx⟩
  · exact fun ⟨hvr, hpfx⟩ => ⟨vr, hvr, pfx, hpfx, rfl, rfl⟩

/-- The kernel goes by the calls, one after the other. -/
theorem foldl_installVrfBy_world {ε σ : Type} (add_route : RouteAddParams → σ → Except ε Unit × σ) :
    ∀ (vrs : List VrfsRequest) (s : VrfsRouteResponse × σ), (vrs.foldl (installVrfBy add_route) s).2 =
      (attempts (fun c => add_route (routeParams c.1 c.2))
        (vrs.flatMap fun vr => vr.prefixes.map (Prod.mk vr)) s.2).2
  | [], _ => rfl
  | vr :: vrs, s => by
    rw [List.foldl_cons, foldl_installVrfBy_world add_route vrs, List.flatMap_cons, attempts_append,
      attempts_map, installVrfBy, installPrefixBy, foldl_attemptFlag]

/-! ### What the client reads -/

section Answers

variable {ε σ : Type} (add_route : RouteAddParams → σ → Except ε Unit × σ)

theorem installVrfBy_eq (s : VrfsRouteResponse × σ) (vr : VrfsRequest) :
    installVrfBy add_route s vr = (answered s.1 (outcome add_route vr s.2).answer,
      (prefixResults add_route vr s.2).2) := by
  rw [installVrfBy, installPrefixBy, foldl_attemptFlag, Bool.true_and]
  rfl

/-- The answers are those of the outcomes. -/
theorem answers_foldl_installVrfBy : ∀ (vrs : List VrfsRequest) (s : VrfsRouteResponse × σ),
    (vrs.foldl (installVrfBy add_route) s).1.answers =
      s.1.answers ++ (outcomes add_route vrs s.2).map VrfOutcome.answer
  | [], s => (List.append_nil _).symm
  | vr :: vrs, s => by
    rw [List.foldl_cons, answers_foldl_installVrfBy vrs, installVrfBy_eq, outcomes, List.map_cons,
      answered, List.append_assoc]
    rfl

theorem status_foldl_installVrfBy : ∀ (vrs : List VrfsRequest) (s : VrfsRouteResponse × σ),
    StatusOfAnswers s.1 → StatusOfAnswers (vrs.foldl (installVrfBy add_route) s).1
  | [], _, hs => hs
  | vr :: vrs, s, hs => by
    refine status_foldl_installVrfBy vrs (installVrfBy add_route s vr) ?_
    rw [installVrfBy_eq]
    exact hs.answered (outcome add_route vr s.2).answer

/-- **The client reads one answer for each VRF of its request, in order**: under the VRF's name, and true
exactly when all its prefixes were installed.  The status is zero exactly when every answer is true. -/
theorem vrf_answers_round_trip (world : σ) (req : VrfsRouteRequest) :
    ∃ raw resp, encodeVrfsRouteResponse (handleVrfsRouteRequestBy add_route world req).1 = .ok raw ∧
      decodeVrfsRouteResponse raw = .ok resp ∧
      (outcomes add_route req.vrfs_requests world).map VrfOutcome.vr = req.vrfs_requests ∧
      List.Forall₂ (fun o ans => ans.vrfs_name = o.vr.vrfs_name ∧ (ans.prefix_status = true ↔ o.Installed))
        (outcomes add_route req.vrfs_requests world) resp.answers ∧
      (resp.status_code = 0 ↔ ∀ ans ∈ resp.answers, ans.prefix_status = true) := by
  obtain ⟨raw, hraw, hresp⟩ :=
    decode_encode_vrfsRouteResponse (handleVrfsRouteRequestBy add_route world req).1
  refine ⟨raw, _, hraw, hresp, outcomes_entries add_route req.vrfs_requests world, ?_, ?_⟩
  · rw [handleVrfsRouteRequestBy, answers_foldl_installVrfBy, List.nil_append, List.forall₂_map_right_iff,
      List.forall₂_same]
    exact fun o _ => ⟨rfl, o.answer_status⟩
  · exact status_foldl_installVrfBy add_route req.vrfs_requests _ statusOfAnswers_nil

end Answers

end Rtsrv.Netlink
