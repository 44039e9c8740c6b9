import FrProxy.RegistryProxy.Answers
import FrProxy.ServerHandler.Stabilization

/-!
# From ZooKeeper to the clients

The server behind its generated processor: a client that asks over a connection
decodes the endpoints that are in the tree of ZooKeeper.
-/

namespace FrProxy

open Program
open RegistryProxy (Answer Call)

namespace ServerHandler

/-- What the server does for a call; the text that `dump` collects is left out. -/
def callAction (rounds : Nat) : Call -> Option ServerAction
  | .get serviceName => some (.get serviceName)
  | .remove serviceName host port => some (.remove serviceName host port)
  | .dump => none
  | .reset => some (.reset rounds)
  | .status => some .status

/-- A handler that returns what the server returns, wherever it returns. -/
def Implements (host : Host) (env : Env) (depth rounds : Nat) (iface : RegistryProxyIf Server) :
    Prop :=
  forall c a s answer s', callAction rounds c = some a ->
    act host env depth a s = .ok (some answer, s') -> c.perform iface s = (.ok answer, s')

/-- A text of which a client makes the endpoints of the service, each of them once. -/
def Lists {parse : String -> Option Json} (t : ZkTree parse) (serviceName text : String) : Prop :=
  forall now, exists v, Registry.unserialize Rapidjson.parse now text = .ok v ∧
    (v.map Registry.endpoint).Nodup ∧
    forall p, p ∈ v.map Registry.endpoint <-> p.name = servicePath serviceName ∧ t.Contains root p

def Reflects {parse : String -> Option Json} (t : ZkTree parse) (c : Call)
    (r : Except TApplicationException Answer) : Prop :=
  exists answer, r = .ok answer ∧
    forall serviceName, c = .get serviceName ->
      exists text, answer = .text text ∧ Lists t serviceName text

section Serving

variable {host : Host} {env : Env} {t : ZkTree env.parse} {depth rounds : Nat} {s : Server}

theorem unserialize_empty (now : Nat) : Registry.unserialize Rapidjson.parse now "" = .ok [] :=
  rfl

theorem get_lists (hsavable : Savable env t) (h : Steady env t s) (serviceName : String) :
    exists text s', get_ env serviceName s = .ok (text, s') ∧ Lists t serviceName text := by
  rcases get_cached env s serviceName with ⟨text, s', l, sec, hget, htext, hdistinct, hl⟩
  refine ⟨text, s', hget, fun now => ?_⟩
  have hlisted : forall p, p ∈ l.map Registry.endpoint <->
      p.name = servicePath serviceName ∧ t.Contains root p :=
    fun p => (hl p).trans (and_congr_right fun _ => h.tracking.synced p)
  by_cases hempty : l = []
  · rw [hempty] at htext hlisted
    rw [htext, if_pos rfl]
    exact ⟨[], unserialize_empty now, List.nodup_nil, hlisted⟩
  · have hclean : forall r, r ∈ l -> r.CleanFields ∧ -2 ^ 31 ≤ r.port ∧ r.port < 2 ^ 31 :=
      fun r hr => hsavable.clean r ((hlisted r.endpoint).mp (List.mem_map_of_mem hr)).right
    have hsame : (l.map (Registry.readBack now)).map Registry.endpoint = l.map Registry.endpoint := by
      rw [List.map_map]
      rfl
    rw [htext, if_neg hempty]
    refine ⟨_, Registry.unserialize_serializeAll sec now (fun r hr => (hclean r hr).left)
      (fun r hr => (hclean r hr).left.typed (hclean r hr).right), ?_, ?_⟩
    · rw [hsame]
      exact hdistinct
    · rw [hsame]
      exact hlisted

theorem call_reflects (hpublishes : Publishes env t) (hsavable : Savable env t)
    (h : Steady env t s) {iface : RegistryProxyIf Server}
    (himpl : Implements host env (depth + 1) (rounds + 2) iface) {c : Call} (hc : c ≠ .dump) :
    exists answer s', c.perform iface s = (.ok answer, s') ∧ Steady env t s' ∧
      Reflects t c (.ok answer) := by
  have hother {a : ServerAction} (hact : callAction (rounds + 2) c = some a) (ha : Quiet a)
      (hget : forall serviceName, c ≠ .get serviceName)
      (hanswer : forall r s', act host env (depth + 1) a s = .ok (r, s') ->
        exists answer, r = some answer) :
      exists answer s', c.perform iface s = (.ok answer, s') ∧ Steady env t s' ∧
        Reflects t c (.ok answer) := by
    rcases act_steady hpublishes hsavable h ha with ⟨r, s', hrun, hsteady⟩
    rcases hanswer r s' hrun with ⟨answer, rfl⟩
    exact ⟨answer, s', himpl c a s answer s' hact hrun, hsteady, answer, rfl,
      fun serviceName heq => absurd heq (hget serviceName)⟩
  cases c with
  | dump => exact absurd rfl hc
  | get serviceName =>
      rcases get_lists hsavable h serviceName with ⟨text, s', hget, htext⟩
      have hrun : act host env (depth + 1) (.get serviceName) s = .ok (some (.text text), s') :=
        bind_ok.mpr ⟨text, s', hget, rfl⟩
      rcases act_steady hpublishes hsavable h (a := .get serviceName) trivial with
        ⟨r, s'', hrun', hsteady⟩
      rw [hrun] at hrun'
      cases hrun'
      refine ⟨.text text, s', himpl _ _ s _ s' rfl hrun, hsteady, .text text, rfl, ?_⟩
      rintro other heq
      cases heq
      exact ⟨text, rfl, htext⟩
  | remove serviceName hostname port =>
      refine hother rfl trivial (fun _ heq => by cases heq) fun r s' hrun => ?_
      rcases bind_ok.mp hrun with ⟨text, _, _, hpure⟩
      cases hpure
      exact ⟨_, rfl⟩
  | reset =>
      refine hother rfl (Nat.le_add_left 2 rounds) (fun _ heq => by cases heq) fun r s' hrun => ?_
      rcases bind_ok.mp hrun with ⟨text, _, _, hpure⟩
      cases hpure
      exact ⟨_, rfl⟩
  | status =>
      refine hother rfl trivial (fun _ heq => by cases heq) fun r s' hrun => ?_
      rcases bind_ok.mp hrun with ⟨text, _, _, hpure⟩
      cases hpure
      exact ⟨_, rfl⟩

open RegistryProxy (performAll recvAll respondAll_calls send serve serve_calls)

theorem performAll_reflects (hpublishes : Publishes env t)
    (hsavable : Savable env t) {iface : RegistryProxyIf Server}
    (himpl : Implements host env (depth + 1) (rounds + 2) iface) (calls : List Call)
    (hcalls : forall c, c ∈ calls -> c ≠ .dump) (h : Steady env t s) :
    List.Forall₂ (Reflects t) calls (performAll iface calls s).1 := by
  induction calls generalizing s with
  | nil => exact .nil
  | cons c calls ih =>
      rcases List.forall_mem_cons.mp hcalls with ⟨hc, hrest⟩
      rcases call_reflects hpublishes hsavable h himpl hc with
        ⟨answer, s', hperform, hsteady, hreflects⟩
      have htail := ih hrest hsteady
      rw [performAll, hperform]
      exact .cons hreflects htail

/-- What a handler returns for what the server does; it throws where the server stops. -/
def outcomeOf {α : Type} (m : ServerM α) (s : Server) : Outcome α × Server :=
  match m s with
  | .ok (a, s') => (.ok a, s')
  | .error _ => (.error "stopped", s)

theorem outcomeOf_ok {α : Type} {m : ServerM α} {a : α} {s s' : Server} (h : m s = .ok (a, s')) :
    outcomeOf m s = (.ok a, s') := by
  simp only [outcomeOf, h]

def handlerOf (host : Host) (env : Env) (depth rounds : Nat) : RegistryProxyIf Server where
  get := fun serviceName => outcomeOf (get_ env serviceName)
  remove := fun serviceName hostname port => outcomeOf (remove serviceName hostname port)
  dump := fun s => (.ok "", s)
  reset := outcomeOf (reset host env depth rounds)
  status := outcomeOf do return Int32.ofNat (<- onWorld env fun env => status env depth host)

theorem handlerOf_implements (host : Host) (env : Env) (depth rounds : Nat) :
    Implements host env depth rounds (handlerOf host env depth rounds) := by
  intro c a s answer s' hact hrun
  cases c with
  | dump => cases hact
  | status =>
      cases hact
      rcases bind_ok.mp hrun with ⟨result, s'', hresult, hpure⟩
      cases hpure
      have hstatus : outcomeOf (do return Int32.ofNat (<- onWorld env fun env =>
          status env depth host)) s = (.ok (Int32.ofNat result), s') :=
        outcomeOf_ok (bind_ok.mpr ⟨result, s', hresult, rfl⟩)
      simp only [Call.perform, handlerOf, hstatus]
      rfl
  | _ =>
      cases hact
      rcases bind_ok.mp hrun with ⟨result, s'', hresult, hpure⟩
      cases hpure
      simp only [Call.perform, handlerOf, outcomeOf_ok hresult]
      rfl

/-- A client that asks around a reset of its own. -/
def askedAround : List Call :=
  [.get "a", .status, .reset, .get "b", .get "a"]

theorem askedAround_known (c : Call) (hc : c ∈ askedAround) : c ≠ .dump := by
  rintro rfl
  simp [askedAround] at hc

end Serving

end ServerHandler

end FrProxy
