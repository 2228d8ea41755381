import WebrtcCaller.Client.Losses

/-!
# What a call gives back

`exitRoom` closes every connection that is held and disposes of every resource that is
held. So after the first hang-up everything made has been given back once, and nothing is
given back again, exactly when no connection has been lost on the way.
-/

namespace WebrtcCaller

/-- A call that gives something back. -/
def Effect.isRelease : Effect → Bool
  | .dispose _ _ => true
  | .close _ => true
  | _ => false

/-- Every connection has been closed once, and every other resource disposed of once. -/
structure ReleasedOnce (log : List Effect) : Prop where
  closed_once : ∀ pc ∈ made .peerConnection log, (closed log).count pc = 1
  disposed_once : ∀ resource ∈ Resource.disposable, ∀ number ∈ made resource log,
    (disposed resource log).count number = 1

namespace PeerService

variable (native : Native)

/-- What is held under an id is closed for the listed ids, or left. -/
theorem closings_perm (ids : List (Option String)) (dic : AList fun _ : Option String => Peer) :
    (dic.entries.map fun entry => entry.2.pc).Perm (closings ids dic ++
      (ids.foldl (fun dic id => dic.erase id) dic).entries.map fun entry => entry.2.pc) := by
  induction ids generalizing dic with
  | nil => exact List.Perm.refl _
  | cons id ids ih =>
    refine (perm_lookup_erase (fun peer : Peer => peer.pc) dic id).trans ?_
    rw [closings, List.append_assoc]
    exact (ih (dic.erase id)).append_left _

/-- What an exit emits: the closes first, the disposals after them. -/
theorem out_exitRoom (service : PeerService) : out native service .exitRoom =
    (closings service.connectionIdArray service.connectionPeerDic).map .close ++
      disposals service := by
  rw [out, task, run_exitRoom]

/-- An exit disposes of every resource that is held, once. -/
theorem log_of_disposals (service : PeerService) (resource : Resource) :
    made resource (disposals service) = [] ∧ closed (disposals service) = [] ∧
      (resource ∈ Resource.disposable →
        disposed resource (disposals service) = (service.held resource).toList) := by
  -- the capturer is stopped before it is disposed of
  have hcapture := log_of_dispose resource .captureAndroid service.captureAndroid.toList
  have hstop : made resource (service.captureAndroid.toList.flatMap fun number =>
        [.stopCapture number, .dispose .captureAndroid number]) = [] ∧
      disposed resource (service.captureAndroid.toList.flatMap fun number =>
        [.stopCapture number, .dispose .captureAndroid number]) =
          (if .captureAndroid = resource then service.captureAndroid.toList else []) ∧
      closed (service.captureAndroid.toList.flatMap fun number =>
        [.stopCapture number, .dispose .captureAndroid number]) = [] := by
    cases hnumber : service.captureAndroid with
    | none => simp [made, disposed, closed]
    | some number =>
      rw [hnumber] at hcapture
      exact hcapture
  have hneutral : ∀ e ∈ (if service.webSocket then [.closeWebSocket] else [] : List Effect),
      e.isNeutral := by
    intro e he
    split at he
    · rw [List.mem_singleton.mp he]
      rfl
    · cases he
  have hsocket := log_of_neutral resource hneutral
  have hdispose (resource' : Resource) := log_of_dispose resource resource'
  refine ⟨?_, ?_, fun hr => ?_⟩
  · simp only [disposals, made_append, hdispose, hstop, hsocket, List.append_nil]
  · simp only [disposals, closed_append, hdispose, hstop, hsocket, List.append_nil]
  · simp only [disposals, disposed_append, hdispose, hstop, hsocket, List.append_nil]
    simp only [Resource.disposable, List.mem_cons, List.not_mem_nil, or_false] at hr
    rcases hr with rfl | rfl | rfl | rfl | rfl
    all_goals simp [held]

/-- The hang-up gives everything back exactly when nothing has been lost. -/
theorem Accounts.exitRoom_iff {log : List Effect} {service : PeerService} {lost : List Nat}
    (h : Accounts log service lost) (hlisted : service.roster.Listed) :
    ReleasedOnce (log ++ out native service .exitRoom) ↔ lost = [] := by
  have hmade (resource : Resource) : made resource (log ++ out native service .exitRoom) =
      made resource log := by
    rw [out_exitRoom, made_append, made_append, (log_of_close _ _).1, (log_of_disposals _ _).1,
      List.append_nil, List.append_nil]
  have hclosed : closed (log ++ out native service .exitRoom) =
      closed log ++ closings service.connectionIdArray service.connectionPeerDic := by
    rw [out_exitRoom, closed_append, closed_append, (log_of_close .peerConnection _).2.2,
      (log_of_disposals _ .peerConnection).2.1, List.append_nil]
  have hperm : (made .peerConnection log).Perm
      (closed (log ++ out native service .exitRoom) ++ lost) := by
    have hall := closings_perm service.connectionIdArray service.connectionPeerDic
    rw [show service.connectionIdArray.foldl (fun dic id => dic.erase id)
      service.connectionPeerDic = ∅ from (blank_exited hlisted).connectionPeerDic_eq] at hall
    rw [hclosed, List.append_assoc]
    refine h.perm.trans (List.Perm.append_left _ (List.Perm.append_right _ ?_))
    exact hall.trans (List.Perm.of_eq (List.append_nil _))
  constructor
  · intro hreleased
    refine List.eq_nil_iff_forall_not_mem.mpr fun pc hlost => ?_
    have hmem : pc ∈ made .peerConnection log := hperm.mem_iff.mpr (List.mem_append_right _ hlost)
    have hcount := hreleased.closed_once pc ((hmade _).symm ▸ hmem)
    have hnodup := hperm.nodup_iff.mp h.nodup
    have hnot := List.disjoint_right.mp (List.disjoint_of_nodup_append hnodup) hlost
    rw [List.count_eq_zero.mpr hnot] at hcount
    cases hcount
  · rintro rfl
    rw [List.append_nil] at hperm
    refine ⟨fun pc hpc => ?_, fun resource hr number hnumber => ?_⟩
    · rw [hmade] at hpc
      rw [← hperm.count_eq, List.count_eq_one_of_mem h.nodup hpc]
    · rw [hmade, h.made_eq resource hr] at hnumber
      rw [out_exitRoom, disposed_append, disposed_append, h.disposed_eq resource hr,
        (log_of_close resource _).2.1, (log_of_disposals service resource).2.2 hr]
      rw [Option.mem_def.mp (Option.mem_toList.mp hnumber)]
      exact List.count_singleton_self ..

/-- A service that has hung up gives nothing back any more. -/
theorem outputs_exited (service : PeerService) (n : Nat) :
    outputs (step native) (out native) service.exited (List.replicate n .exitRoom) = [] := by
  induction n with
  | zero => rfl
  | succ n ih =>
    have hstep : step native service.exited .exitRoom = service.exited := by
      rw [step, task, run_exitRoom]
      rfl
    have hout : out native service.exited .exitRoom = [] := by
      rw [out_exitRoom]
      rfl
    rw [List.replicate_succ, outputs, hstep, hout, ih]
    rfl

/-- After the hang-up every connection has been closed once, every other resource disposed of
once, and nothing is given back again, exactly when no task has put a connection in the place of
another. -/
theorem exitRoom_releases_iff (before : List PeerEvent)
    (hbefore : ∀ event ∈ before, event ≠ .exitRoom) :
    ReleasedOnce (emitted native (before ++ [.exitRoom])) ∧
      (∀ n, ∀ e ∈ outputs (step native) (out native) (after native (before ++ [.exitRoom]))
        (List.replicate n .exitRoom), e.isRelease = false) ↔
    Along (step native) Apart init before := by
  obtain ⟨lost, haccounts, hlost⟩ := Accounts.init.run native hbefore
  have hiff := haccounts.exitRoom_iff native (listed_after native before)
  have hlog : emitted native (before ++ [.exitRoom]) =
      emitted native before ++ out native (after native before) .exitRoom := by
    rw [emitted, outputs_append, outputs, outputs, List.append_nil]
    rfl
  rw [hlog, after_exitRoom, ← hlost]
  refine (and_iff_left fun n e he => ?_).trans hiff
  rw [outputs_exited] at he
  cases he

/-- One newcomer, and nobody announced again. -/
theorem newcomer_released :
    ReleasedOnce (emitted .lenient ([.initContext,
      .signal false 0 (.onJoinToRoom (some [some "bob"]) (some "alice")),
      .signal false 0 (.onRemoteJoinToRoom (some "carol"))] ++ [.exitRoom])) := by
  refine ((exitRoom_releases_iff .lenient _ ?_).mpr ?_).1
  · intro event hevent
    simp only [List.mem_cons, List.not_mem_nil, or_false] at hevent
    rcases hevent with rfl | rfl | rfl <;> nofun
  · have hcarol : some "carol" ∉ (after .lenient [.initContext,
        .signal false 0 (.onJoinToRoom (some [some "bob"]) (some "alice"))]).connectionPeerDic := by
      decide
    exact ⟨trivial, fun _ => ⟨by decide, by decide⟩, hcarol, trivial⟩

/-- A newcomer that is announced twice leaves a connection open. -/
theorem announced_twice_leaks :
    ¬(ReleasedOnce (emitted .lenient ([.initContext,
        .signal false 0 (.onJoinToRoom (some []) (some "alice")),
        .signal false 0 (.onRemoteJoinToRoom (some "bob")),
        .signal false 0 (.onRemoteJoinToRoom (some "bob"))] ++ [.exitRoom])) ∧
      ∀ n, ∀ e ∈ outputs (step .lenient) (out .lenient) (after .lenient ([.initContext,
        .signal false 0 (.onJoinToRoom (some []) (some "alice")),
        .signal false 0 (.onRemoteJoinToRoom (some "bob")),
        .signal false 0 (.onRemoteJoinToRoom (some "bob"))] ++ [.exitRoom]))
        (List.replicate n .exitRoom), e.isRelease = false) := by
  rintro ⟨hreleased, -⟩
  have hcount := hreleased.closed_once 3 (by decide)
  revert hcount
  decide

end PeerService
end WebrtcCaller
