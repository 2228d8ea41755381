import WebrtcCaller.Client.Exit

/-!
# The ledger of a call

What has been made, closed and disposed of is read off the log. Of the connections made,
some have been closed, some are held under an id, and the others are lost: putting a
connection under an id replaces the one already there, which nothing refers to any more.
The other resources are made once and held until the call is hung up.
-/

namespace WebrtcCaller

namespace Effect

/-- The number of a created resource. -/
def createdNumber (resource : Resource) : Effect → Option Nat
  | .create resource' number => if resource' = resource then some number else none
  | _ => none

/-- The number of a disposed resource. -/
def disposedNumber (resource : Resource) : Effect → Option Nat
  | .dispose resource' number => if resource' = resource then some number else none
  | _ => none

/-- The number of a closed connection. -/
def closedNumber : Effect → Option Nat
  | .close pc => some pc
  | _ => none

/-- A call that neither makes nor gives back anything. -/
def isNeutral : Effect → Bool
  | .create _ _ => false
  | .dispose _ _ => false
  | .close _ => false
  | _ => true

end Effect

/-- The numbers of what was made, in order. -/
def made (resource : Resource) (log : List Effect) : List Nat :=
  log.filterMap (Effect.createdNumber resource)

/-- The numbers of what was disposed of, in order. -/
def disposed (resource : Resource) (log : List Effect) : List Nat :=
  log.filterMap (Effect.disposedNumber resource)

/-- The connections that were closed, in order. -/
def closed (log : List Effect) : List Nat := log.filterMap Effect.closedNumber

section Log

variable (resource : Resource) (log log' : List Effect)

/-- What two logs have made is what each of them has. -/
theorem made_append :
    made resource (log ++ log') = made resource log ++ made resource log' :=
  List.filterMap_append

/-- What two logs have disposed of is what each of them has. -/
theorem disposed_append :
    disposed resource (log ++ log') = disposed resource log ++ disposed resource log' :=
  List.filterMap_append

/-- What two logs have closed is what each of them has. -/
theorem closed_append : closed (log ++ log') = closed log ++ closed log' :=
  List.filterMap_append

variable {log}

/-- A log of neutral effects is balanced by itself. -/
theorem log_of_neutral (h : ∀ e ∈ log, e.isNeutral) :
    made resource log = [] ∧ disposed resource log = [] ∧ closed log = [] := by
  refine ⟨?_, ?_, ?_⟩
  all_goals
    refine List.filterMap_eq_nil_iff.mpr fun e he => ?_
    have hneutral := h e he
    cases e with
    | create _ _ => cases hneutral
    | dispose _ _ => cases hneutral
    | close _ => cases hneutral
    | _ => rfl

variable {resource}

theorem made_create_of_ne {resource' : Resource} (h : resource' ≠ resource) (number : Nat) :
    made resource [.create resource' number] = [] := by
  simp [made, Effect.createdNumber, h]

/-- A log of closes closes these connections and nothing else. -/
theorem log_of_close (resource : Resource) (pcs : List Nat) :
    made resource (pcs.map .close) = [] ∧ disposed resource (pcs.map .close) = [] ∧
      closed (pcs.map .close) = pcs := by
  refine ⟨?_, ?_, ?_⟩
  · simp [made, List.filterMap_map, Function.comp_def, Effect.createdNumber]
  · simp [disposed, List.filterMap_map, Function.comp_def, Effect.disposedNumber]
  · simp [closed, List.filterMap_map, Function.comp_def, Effect.closedNumber]

/-- A log of disposals disposes of these resources and nothing else. -/
theorem log_of_dispose (resource resource' : Resource) (numbers : List Nat) :
    made resource (numbers.map (.dispose resource')) = [] ∧
      disposed resource (numbers.map (.dispose resource')) =
        (if resource' = resource then numbers else []) ∧
      closed (numbers.map (.dispose resource')) = [] := by
  refine ⟨?_, ?_, ?_⟩
  · simp [made, List.filterMap_map, Function.comp_def, Effect.createdNumber]
  · by_cases h : resource' = resource <;>
      simp [disposed, List.filterMap_map, Function.comp_def, Effect.disposedNumber, h]
  · simp [closed, List.filterMap_map, Function.comp_def, Effect.closedNumber]

end Log

/-- The resources that `exitRoom` disposes of. -/
def Resource.disposable : List Resource :=
  [.audioSource, .videoSource, .captureAndroid, .surfaceTextureHelper, .peerFactory]

/-- Connections are closed and not disposed of. -/
theorem Resource.ne_of_disposable : ∀ resource ∈ Resource.disposable,
    resource ≠ .peerConnection := by
  decide

namespace PeerService

/-- The field that holds a resource. -/
def held (service : PeerService) : Resource → Option Nat
  | .peerFactory => service.peerFactory
  | .localStream => service.localStream
  | .audioSource => service.audioSource
  | .captureAndroid => service.captureAndroid
  | .surfaceTextureHelper => service.surfaceTextureHelper
  | .videoSource => service.videoSource
  | .peerConnection => none

theorem lookup_pcs_eq_nil (dic : AList fun _ : Option String => Peer) (id : Option String) :
    (dic.lookup id).toList.map (·.pc) = [] ↔ id ∉ dic := by
  rw [List.map_eq_nil_iff, ← AList.lookup_eq_none]
  cases dic.lookup id <;> simp

/-- The connections held under an id. -/
def connections (service : PeerService) : List Nat :=
  service.connectionPeerDic.entries.map fun entry => entry.2.pc

/-- The objects account for each other: connections made are closed, held or lost, and the other
resources are held as they were made. -/
structure Accounts (log : List Effect) (service : PeerService) (lost : List Nat) : Prop where
  nodup : (made .peerConnection log).Nodup
  fresh : ∀ pc ∈ made .peerConnection log, pc < service.created
  perm : (made .peerConnection log).Perm (closed log ++ (service.connections ++ lost))
  made_eq : ∀ resource ∈ Resource.disposable, made resource log = (service.held resource).toList
  disposed_eq : ∀ resource ∈ Resource.disposable, disposed resource log = []
  unstreamed : service.localStream = none → ∀ resource ∈ Resource.disposable,
    resource ≠ .peerFactory → service.held resource = none
  streamed : service.localStream.isSome → service.peerFactory.isSome
  peered : ∀ id ∈ service.connectionPeerDic, service.peerFactory.isSome
  context_of_factory : service.peerFactory.isSome → service.context = true

namespace Accounts

variable {log : List Effect} {service service' : PeerService} {lost : List Nat}

theorem init : Accounts [] init [] where
  nodup := List.nodup_nil
  fresh := nofun
  perm := List.Perm.nil
  made_eq := by decide
  disposed_eq := by decide
  unstreamed _ := by decide
  streamed := nofun
  peered := nofun
  context_of_factory := nofun

/-- A step that makes nothing and closes what it takes from the peers. -/
theorem frame (h : Accounts log service lost) {out : List Effect}
    (hmade : ∀ resource, made resource out = [])
    (hdisposed : ∀ resource, disposed resource out = [])
    (hperm : service.connections.Perm (closed out ++ service'.connections))
    (hpeers : ∀ id ∈ service'.connectionPeerDic, id ∈ service.connectionPeerDic)
    (hheld : ∀ resource, service'.held resource = service.held resource)
    (hcreated : service'.created = service.created)
    (hcontext : service.context = true → service'.context = true) :
    Accounts (log ++ out) service' lost := by
  have hfactory : service'.peerFactory = service.peerFactory := hheld .peerFactory
  have hstream : service'.localStream = service.localStream := hheld .localStream
  have hmade (resource : Resource) : made resource (log ++ out) = made resource log := by
    rw [made_append, hmade, List.append_nil]
  refine ⟨?_, ?_, ?_, ?_, ?_, ?_, ?_, ?_, ?_⟩
  · rw [hmade]
    exact h.nodup
  · rw [hmade, hcreated]
    exact h.fresh
  · rw [hmade, closed_append, List.append_assoc]
    refine h.perm.trans (List.Perm.append_left _ ?_)
    rw [← List.append_assoc]
    exact hperm.append_right _
  · intro resource hr
    rw [hmade, hheld]
    exact h.made_eq resource hr
  · intro resource hr
    rw [disposed_append, hdisposed, h.disposed_eq resource hr]
    rfl
  · intro hnone resource hr hne
    rw [hheld]
    exact h.unstreamed (hstream ▸ hnone) resource hr hne
  · rw [hstream, hfactory]
    exact h.streamed
  · rw [hfactory]
    exact fun id hid => h.peered id (hpeers id hid)
  · rw [hfactory]
    exact fun hsome => hcontext (h.context_of_factory hsome)

/-- A step that makes and gives back nothing. -/
theorem neutral (h : Accounts log service lost) {out : List Effect}
    (hout : ∀ e ∈ out, e.isNeutral)
    (hheld : ∀ resource, service'.held resource = service.held resource)
    (hdic : service'.connectionPeerDic = service.connectionPeerDic)
    (hcreated : service'.created = service.created)
    (hcontext : service.context = true → service'.context = true) :
    Accounts (log ++ out) service' lost := by
  refine h.frame (fun resource => (log_of_neutral resource hout).1)
    (fun resource => (log_of_neutral resource hout).2.1) ?_ (fun id hid => hdic ▸ hid) hheld
    hcreated hcontext
  rw [(log_of_neutral .peerConnection hout).2.2, connections, connections, hdic]
  exact List.Perm.refl _

/-- A new resource in its field. -/
theorem hold (h : Accounts log service lost) (resource : Resource) (service' : PeerService)
    (hne : resource ≠ .peerConnection) (hnone : service.held resource = none)
    (hready : resource = .peerFactory ∧ service.context = true ∨ service.peerFactory.isSome ∧
      (resource = .localStream ∨ service.localStream.isSome))
    (hheld : ∀ resource', service'.held resource' =
      if resource' = resource then some service.created else service.held resource')
    (hdic : service'.connectionPeerDic = service.connectionPeerDic)
    (hcreated : service'.created = service.created + 1)
    (hcontext : service'.context = service.context) :
    Accounts (log ++ [.create resource service.created]) service' lost := by
  have hmade (resource' : Resource) : made resource' (log ++ [.create resource service.created]) =
      made resource' log ++ if resource = resource' then [service.created] else [] := by
    rw [made_append]
    by_cases hr : resource = resource' <;> simp [made, Effect.createdNumber, hr]
  have hpc : made .peerConnection (log ++ [.create resource service.created]) =
      made .peerConnection log := by
    rw [hmade, if_neg hne, List.append_nil]
  have hclosed : closed (log ++ [.create resource service.created]) = closed log := by
    rw [closed_append]
    exact List.append_nil _
  have hfactory : service'.peerFactory.isSome := by
    change (service'.held .peerFactory).isSome
    rw [hheld]
    split
    · rfl
    · rename_i hother
      rcases hready with ⟨hr, -⟩ | ⟨hsome, -⟩
      · exact absurd hr.symm hother
      · exact hsome
  refine ⟨?_, ?_, ?_, ?_, ?_, ?_, fun _ => hfactory, fun _ _ => hfactory, fun _ => ?_⟩
  · rw [hpc]
    exact h.nodup
  · rw [hpc, hcreated]
    exact fun pc hpc' => Nat.lt_succ_of_lt (h.fresh pc hpc')
  · rw [hpc, hclosed, connections, hdic]
    exact h.perm
  · intro resource' hr
    rw [hmade, hheld, h.made_eq resource' hr]
    by_cases he : resource = resource'
    · subst he
      simp [hnone]
    · simp [he, Ne.symm he]
  · intro resource' hr
    rw [disposed_append, h.disposed_eq resource' hr]
    rfl
  · intro hunstreamed resource' hr hne'
    change service'.held .localStream = none at hunstreamed
    rw [hheld] at hunstreamed
    split at hunstreamed
    · cases hunstreamed
    · rename_i hother
      rcases hready with ⟨rfl, -⟩ | ⟨-, rfl | hsome⟩
      · rw [hheld, if_neg hne']
        exact h.unstreamed hunstreamed resource' hr hne'
      · exact absurd rfl hother
      · rw [show service.localStream = none from hunstreamed] at hsome
        cases hsome
  · rw [hcontext]
    rcases hready with ⟨-, hc⟩ | ⟨hsome, -⟩
    · exact hc
    · exact h.context_of_factory hsome

/-- A new connection under an id; the one it replaces is lost. -/
theorem connect (h : Accounts log service lost) (id : Option String)
    (hfactory : service.peerFactory.isSome) :
    Accounts (log ++ [.create .peerConnection service.created])
      { service with
        created := service.created + 1
        connectionPeerDic := service.connectionPeerDic.insert id ⟨service.created, id⟩ }
      (lost ++ (service.connectionPeerDic.lookup id).toList.map (·.pc)) := by
  have hmade : made .peerConnection (log ++ [.create .peerConnection service.created]) =
      made .peerConnection log ++ [service.created] := made_append _ _ _
  have hclosed : closed (log ++ [.create .peerConnection service.created]) = closed log := by
    rw [closed_append]
    exact List.append_nil _
  refine ⟨?_, ?_, ?_, ?_, ?_, h.unstreamed, h.streamed, fun _ _ => hfactory, h.context_of_factory⟩
  · rw [hmade]
    refine List.Nodup.append h.nodup (List.nodup_singleton _) ?_
    rintro pc hpc hnew
    rw [List.mem_singleton.mp hnew] at hpc
    exact absurd (h.fresh _ hpc) (Nat.lt_irrefl _)
  · rw [hmade]
    intro pc hpc
    rcases List.mem_append.mp hpc with hpc | hpc
    · exact Nat.lt_succ_of_lt (h.fresh pc hpc)
    · rw [List.mem_singleton.mp hpc]
      exact Nat.lt_succ_self _
  · rw [hmade, hclosed, connections, AList.entries_insert, List.map_cons, List.perm_iff_count]
    intro pc
    have hmade := h.perm.count_eq pc
    have hheld : service.connections.count pc = _ :=
      (perm_lookup_erase (fun peer : Peer => peer.pc) service.connectionPeerDic id).count_eq pc
    rw [show (service.connectionPeerDic.erase id).entries =
      service.connectionPeerDic.entries.kerase id from rfl] at hheld
    simp only [List.count_append, List.count_cons, List.count_nil] at *
    omega
  · intro resource hr
    rw [made_append, made_create_of_ne (Resource.ne_of_disposable resource hr).symm,
      List.append_nil]
    exact h.made_eq resource hr
  · intro resource hr
    rw [disposed_append, h.disposed_eq resource hr]
    rfl

/-- The connection under an id is closed. -/
theorem disconnect (h : Accounts log service lost) (id : Option String)
    (hheld : ∀ resource, service'.held resource = service.held resource)
    (hdic : service'.connectionPeerDic = service.connectionPeerDic.erase id)
    (hcreated : service'.created = service.created)
    (hcontext : service'.context = service.context) :
    Accounts (log ++ ((service.connectionPeerDic.lookup id).toList.map (·.pc)).map .close)
      service' lost := by
  refine h.frame (fun resource => (log_of_close resource _).1)
    (fun resource => (log_of_close resource _).2.1) ?_ (fun id' hid => ?_) hheld hcreated
    fun hc => hcontext.trans hc
  · rw [(log_of_close .peerConnection _).2.2]
    refine (perm_lookup_erase (fun peer : Peer => peer.pc) service.connectionPeerDic id).trans ?_
    rw [connections, hdic]
  · rw [hdic, AList.mem_erase] at hid
    exact hid.2

end Accounts

end PeerService

end WebrtcCaller
