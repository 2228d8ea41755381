import WebrtcCaller.Core.Run
import WebrtcCaller.View.Group

/-!
# The registry of the renderers

A run of `addView` and `removeView` keeps the list, the maps and the frame of the page in
step, and every renderer in the map or released once, exactly as long as no id is added
while it has a renderer. No run releases a renderer twice; what goes wrong is that the
renderer which the map loses is never released at all.
-/

namespace WebrtcCaller

/-- The calls that the media callbacks of the page make. -/
inductive PageCall where
  | addView (id : Option String) (stream : MediaStream)
  | removeView (userId : Option String)

/-- The callback of the page for each call. -/
def PageCall.task : PageCall → PageTask Unit
  | .addView id stream => ChatGroupActivity.addView id stream
  | .removeView userId => ChatGroupActivity.removeView userId

/-- The page with everything it has done. -/
structure Display where
  page : ChatGroupActivity
  log : List PageEffect

namespace Display

/-- A page before its first member. -/
def start (mScreenWidth : Int32) : Display := ⟨⟨∅, ∅, [], [], mScreenWidth, 0⟩, []⟩

/-- What is left after a task, whether it has ended or raised. -/
def after (display : Display) (task : PageTask Unit) : Display :=
  ⟨(task.run display.page).state, display.log ++ (task.run display.page).out⟩

/-- The page and its log after a call. -/
def step (display : Display) (call : PageCall) : Display := display.after call.task

/-- The renderers released so far, in order. -/
def released (display : Display) : List Nat := display.log.filterMap PageEffect.releasedRenderer

/-- The page tells of its members the same everywhere, and no renderer is leaked or released
twice. -/
structure Registered (display : Display) : Prop where
  matched : display.page.Matched
  released_once : ∀ renderer < display.page.created,
    renderer ∈ display.page.held ∧ renderer ∉ display.released ∨
      display.released.count renderer = 1

/-- No id is added while it has a renderer, and no null is removed while it has one. -/
def Fresh (display : Display) : PageCall → Prop
  | .addView id _ => id ∉ display.page.videoViews
  | .removeView userId => userId = none → none ∉ display.page.videoViews

section Outputs

variable (page : ChatGroupActivity)

/-- Placing the members releases nothing. -/
theorem filterMap_placings :
    page.placings.filterMap PageEffect.releasedRenderer = [] := by
  refine List.filterMap_eq_nil_iff.mpr fun e he => ?_
  obtain ⟨place, -, he⟩ := List.mem_flatMap.mp he
  obtain ⟨renderer1, -, rfl⟩ := List.mem_map.mp he
  rfl

/-- What a removal releases is the renderer under the id. -/
theorem filterMap_releasing (id : Option String) :
    (page.releasing id).filterMap PageEffect.releasedRenderer =
      (page.videoViews.lookup id).toList := by
  rw [ChatGroupActivity.releasing]
  cases page.sinks.lookup id <;> cases page.videoViews.lookup id <;> rfl

end Outputs

variable (display : Display) (id : Option String)

/-- An added member gets a new renderer, and none is released. -/
theorem step_addView (stream : MediaStream) :
    (display.step (.addView id stream)).page = display.page.added id ∧
      (display.step (.addView id stream)).released = display.released := by
  rw [step, after, PageCall.task, ChatGroupActivity.run_addView]
  refine ⟨rfl, ?_⟩
  have htrack : (stream.videoTracks.head?.toList.map (PageEffect.addSink · display.page.created)
      ).filterMap PageEffect.releasedRenderer = [] := by
    cases stream.videoTracks.head? <;> rfl
  rw [released, List.filterMap_append, List.filterMap_cons_none rfl, List.filterMap_append, htrack,
    filterMap_placings, List.append_nil, List.append_nil, released]

/-- A removal releases the renderer under the id. -/
theorem released_removeView :
    (display.step (.removeView id)).released =
      display.released ++ (display.page.videoViews.lookup id).toList := by
  rw [step, after, PageCall.task, ChatGroupActivity.run_removeView, released]
  cases User.remove ⟨id⟩ display.page.infos with
  | ok infos =>
    rw [List.filterMap_append, List.filterMap_append, filterMap_placings, filterMap_releasing,
      List.append_nil, released]
  | error e => rw [List.filterMap_append, filterMap_releasing, released]

/-- The page after a removal that found the list of members in order. -/
theorem page_removeView (h : id = none → display.page.infos = []) :
    (display.step (.removeView id)).page =
      display.page.removed id (display.page.infos.erase ⟨id⟩) := by
  have hremove : User.remove ⟨id⟩ display.page.infos = .ok (display.page.infos.erase ⟨id⟩) := by
    cases id with
    | none => rw [User.remove_of_none, h rfl, if_pos rfl, List.erase_nil]
    | some id => exact User.remove_of_some id _
  rw [step, after, PageCall.task, ChatGroupActivity.run_removeView, hremove]

/-- A null stops the removal half way, unless the list is empty. -/
theorem page_removeView_none (h : display.page.infos ≠ []) :
    (display.step (.removeView none)).page = display.page.taken none := by
  rw [step, after, PageCall.task, ChatGroupActivity.run_removeView, User.remove_of_none, if_neg h]

/-- A removal moves the renderer of the id from the map to the released, even where it raises. -/
theorem perm_removeView :
    (display.step (.removeView id)).page.created = display.page.created ∧
      ((display.step (.removeView id)).page.held ++ (display.step (.removeView id)).released).Perm
        (display.page.held ++ display.released) := by
  have hpage : (display.step (.removeView id)).page.created = display.page.created ∧
      (display.step (.removeView id)).page.held = (display.page.taken id).held := by
    rw [step, after, PageCall.task, ChatGroupActivity.run_removeView]
    cases User.remove ⟨id⟩ display.page.infos <;> exact ⟨rfl, rfl⟩
  refine ⟨hpage.1, ?_⟩
  rw [hpage.2, released_removeView]
  have hmove := (ChatGroupActivity.held_perm display.page id).append_right display.released
  rw [List.append_assoc] at hmove
  rw [← List.append_assoc]
  exact List.perm_append_comm.trans hmove.symm

/-- Every renderer is in the map or released, once. -/
def Balanced (display : Display) : Prop :=
  (display.page.held ++ display.released).Perm (List.range display.page.created)

namespace Balanced

variable {display} {id} (h : display.Balanced)
include h

/-- Of the renderers made so far each is in the map, or has been released once. -/
theorem released_once {renderer : Nat} (hlt : renderer < display.page.created) :
    renderer ∈ display.page.held ∧ renderer ∉ display.released ∨
      display.released.count renderer = 1 := by
  have hmem : renderer ∈ display.page.held ++ display.released :=
    h.mem_iff.mpr (List.mem_range.mpr hlt)
  have hnodup : (display.page.held ++ display.released).Nodup := h.nodup_iff.mpr List.nodup_range
  rcases List.mem_append.mp hmem with hheld | hreleased
  · exact Or.inl ⟨hheld, List.disjoint_of_nodup_append hnodup hheld⟩
  · exact Or.inr (List.count_eq_one_of_mem hnodup.of_append_right hreleased)

/-- A new id keeps the account balanced. -/
theorem addView (hid : id ∉ display.page.videoViews) (stream : MediaStream) :
    (display.step (.addView id stream)).Balanced := by
  obtain ⟨hpage, hreleased⟩ := step_addView display id stream
  rw [Balanced, hpage, hreleased, ChatGroupActivity.held_added,
    ChatGroupActivity.taken_held_of_notMem hid, List.cons_append]
  have hcreated : (display.page.added id).created = display.page.created + 1 := rfl
  rw [hcreated, List.range_succ]
  exact (List.Perm.cons _ h).trans (List.perm_append_singleton _ _).symm

/-- A removal keeps the account balanced. -/
theorem removeView (id : Option String) : (display.step (.removeView id)).Balanced := by
  obtain ⟨hcreated, hperm⟩ := perm_removeView display id
  rw [Balanced, hcreated]
  exact hperm.trans h

end Balanced

namespace Registered

variable {display : Display} {id : Option String} {call : PageCall}

/-- A call that is not fresh breaks the registry. -/
theorem fresh (h : display.Registered) (hnext : (display.step call).Registered) :
    display.Fresh call := by
  cases call with
  | addView id stream =>
    intro hid
    have hnodup := hnext.matched.nodup
    rw [(step_addView display id stream).1] at hnodup
    exact h.matched.not_added hid hnodup
  | removeView userId =>
    rintro rfl hid
    have hold : none ∈ display.page.ids := (h.matched.mem_videoViews none).mpr hid
    have hinfos : display.page.infos ≠ [] := by
      intro hnil
      rw [ChatGroupActivity.ids, hnil] at hold
      cases hold
    have hviews := hnext.matched.mem_videoViews none
    rw [page_removeView_none display hinfos] at hviews
    exact (AList.mem_erase.mp (hviews.mp hold)).1 rfl

/-- A fresh call keeps it. -/
theorem step (h : display.Registered) (hb : display.Balanced) (hfresh : display.Fresh call) :
    (display.step call).Registered ∧ (display.step call).Balanced := by
  cases call with
  | addView id stream =>
    have hnext := hb.addView hfresh stream
    refine ⟨⟨?_, fun renderer => hnext.released_once⟩, hnext⟩
    rw [(step_addView display id stream).1]
    exact h.matched.added hfresh
  | removeView userId =>
    have hnext := hb.removeView userId
    refine ⟨⟨?_, fun renderer => hnext.released_once⟩, hnext⟩
    by_cases hraise : userId = none ∧ display.page.infos ≠ []
    · -- the call raises, but there was nothing to take
      obtain ⟨rfl, hinfos⟩ := hraise
      have hview := hfresh rfl
      have hsink : none ∉ display.page.sinks := by
        rwa [← h.matched.mem_sinks, h.matched.mem_videoViews]
      rw [page_removeView_none display hinfos, ChatGroupActivity.taken_of_notMem hview hsink]
      exact h.matched
    · have hinfos : userId = none → display.page.infos = [] := by
        intro hnone
        by_contra hne
        exact hraise ⟨hnone, hne⟩
      rw [page_removeView display userId hinfos]
      exact h.matched.removed userId

end Registered

section Twice

/-- No renderer is in two places. -/
def Accounted (display : Display) : Prop :=
  (display.page.held ++ display.released).Subperm (List.range display.page.created)

/-- No call puts a renderer in a second place. -/
theorem Accounted.step {display : Display} (h : display.Accounted) (call : PageCall) :
    (display.step call).Accounted := by
  cases call with
  | addView id stream =>
    obtain ⟨hpage, hreleased⟩ := step_addView display id stream
    -- whatever the map had under the id is gone from it
    have htaken : (display.page.taken id).held.Sublist display.page.held :=
      (List.kerase_sublist id display.page.videoViews.entries).map _
    have hcreated : (display.page.added id).created = display.page.created + 1 := rfl
    rw [Accounted, hpage, hreleased, ChatGroupActivity.held_added, hcreated, List.range_succ,
      List.cons_append]
    have hrest := (htaken.append_right display.released).subperm.trans h
    exact (List.subperm_cons _).mpr hrest |>.trans (List.perm_append_singleton _ _).symm.subperm
  | removeView userId =>
    obtain ⟨hcreated, hperm⟩ := perm_removeView display userId
    rw [Accounted, hcreated]
    exact hperm.subperm.trans h

/-- No run releases a renderer twice. -/
theorem released_nodup (mScreenWidth : Int32) (calls : List PageCall) :
    (calls.foldl step (start mScreenWidth)).released.Nodup := by
  have hstart : Accounted (start mScreenWidth) := List.nil_subperm
  obtain ⟨all, hperm, hsub⟩ := List.foldlRecOn (motive := Accounted) calls step hstart
    fun display h call _ => h.step call
  exact (hperm.nodup_iff.mp (List.nodup_range.sublist hsub)).of_append_right

end Twice

variable (mScreenWidth : Int32)

theorem start_registered : (start mScreenWidth).Registered where
  matched := ⟨List.nodup_nil, fun _ => Iff.rfl, fun _ => Iff.rfl, List.Perm.nil⟩
  released_once := nofun

/-- The registry holds throughout a run exactly when all its calls are fresh. -/
theorem registered_throughout_iff (calls : List PageCall) :
    Throughout step Registered (start mScreenWidth) calls ↔
      Along step Fresh (start mScreenWidth) calls := by
  have hstart := start_registered mScreenWidth
  refine throughout_iff_along_of_pass (J := fun display => display.Registered ∧ display.Balanced)
    (fun display call h => ?_) (fun display call h hfresh => h.1.step h.2 hfresh)
    ⟨hstart, List.Perm.nil⟩ hstart
  constructor
  · exact h.1.fresh
  · exact fun hfresh => (h.1.step h.2 hfresh).1

/-- A member offers a second stream. -/
def secondStreamRun : List PageCall :=
  [.addView (some "a") ⟨[1]⟩, .addView (some "a") ⟨[2]⟩]

/-- The member is listed twice, and its first renderer stays on the screen, out of reach. -/
theorem secondStream_not_registered :
    ¬Throughout step Registered (start 1080) secondStreamRun ∧
      (secondStreamRun.foldl step (start 1080)).page.ids = [some "a", some "a"] ∧
      (secondStreamRun.foldl step (start 1080)).page.wrVideoView = [0, 1] ∧
      (secondStreamRun.foldl step (start 1080)).page.held = [1] ∧
      (secondStreamRun.foldl step (start 1080)).released = [] := by
  refine ⟨fun h => ?_, by decide, by decide, by decide, by decide⟩
  have hlast : Registered (secondStreamRun.foldl step (start 1080)) := h.2.2
  exact absurd hlast.matched.nodup (by decide)

/-- After a run of fresh calls the registry is in order. -/
theorem registered_of_fresh {calls : List PageCall}
    (h : Along step Fresh (start mScreenWidth) calls) :
    (calls.foldl step (start mScreenWidth)).Registered ∧
      (calls.foldl step (start mScreenWidth)).Balanced := by
  have hrun : Reachable step Fresh (start mScreenWidth) (calls.foldl step (start mScreenWidth)) :=
    h.reachable .init
  exact hrun.invariant (I := fun display => display.Registered ∧ display.Balanced)
    ⟨start_registered mScreenWidth, List.Perm.nil⟩
    fun display call hall hfresh => hall.1.step hall.2 hfresh

section Exit

/-- An exit releases what is in the map, and empties it. -/
theorem exit_spec (display : Display) :
    (display.after ChatGroupActivity.exit).page.created = display.page.created ∧
      (display.after ChatGroupActivity.exit).page.held = [] ∧
      (display.after ChatGroupActivity.exit).released =
        display.released ++ display.page.held := by
  rw [after, ChatGroupActivity.run_exit]
  refine ⟨rfl, rfl, ?_⟩
  have hsinks : (display.page.sinks.entries.map fun entry =>
      PageEffect.setTarget entry.2 none).filterMap PageEffect.releasedRenderer = [] := by
    simp [PageEffect.releasedRenderer]
  have hviews : (display.page.videoViews.entries.map fun entry =>
      PageEffect.release entry.2).filterMap PageEffect.releasedRenderer = display.page.held := by
    simp [List.filterMap_map, Function.comp_def, PageEffect.releasedRenderer,
      ChatGroupActivity.held]
  rw [released, List.filterMap_append, List.filterMap_cons_none rfl, List.filterMap_append, hviews,
    hsinks, List.append_nil, released]

/-- An exit keeps the account balanced. -/
theorem Balanced.exit {display : Display} (h : display.Balanced) :
    (display.after ChatGroupActivity.exit).Balanced := by
  obtain ⟨hcreated, hheld, hreleased⟩ := exit_spec display
  rw [Balanced, hcreated, hheld, hreleased, List.nil_append]
  exact List.perm_append_comm.trans h

/-- `hangUp` runs `exit` and finishes the page, so that `onDestroy` runs it again. After a run of
fresh calls every renderer has then been released, once. -/
theorem hangUp_released_once {calls : List PageCall}
    (h : Along step Fresh (start mScreenWidth) calls) {renderer : Nat}
    (hlt : renderer < (calls.foldl step (start mScreenWidth)).page.created) :
    (((calls.foldl step (start mScreenWidth)).after ChatGroupActivity.exit).after
      ChatGroupActivity.exit).released.count renderer = 1 := by
  have hbalanced := (registered_of_fresh mScreenWidth h).2.exit.exit
  rw [← (exit_spec _).1, ← (exit_spec _).1] at hlt
  rcases hbalanced.released_once hlt with ⟨hmem, -⟩ | hcount
  · rw [(exit_spec _).2.1] at hmem
    cases hmem
  · exact hcount

/-- One member comes. -/
def oneMemberRun : List PageCall := [.addView (some "a") ⟨[1]⟩]

/-- In the run no id is added twice. -/
theorem oneMember_fresh : Along step Fresh (start 1080) oneMemberRun :=
  ⟨by simp [Fresh, start], trivial⟩

/-- In the run the renderer is released by the first of two exits. -/
theorem hangUp_released_once_member :
    (((oneMemberRun.foldl step (start 1080)).after ChatGroupActivity.exit).after
      ChatGroupActivity.exit).released.count 0 = 1 :=
  hangUp_released_once 1080 oneMember_fresh (by decide)

end Exit

section Layout

/-- No call changes the width of the screen. -/
theorem mScreenWidth_step (display : Display) (call : PageCall) :
    (display.step call).page.mScreenWidth = display.page.mScreenWidth := by
  cases call with
  | addView id stream => rw [(step_addView display id stream).1, ChatGroupActivity.added]
  | removeView userId =>
    rw [step, after, PageCall.task, ChatGroupActivity.run_removeView]
    cases User.remove ⟨userId⟩ display.page.infos <;> rfl

/-- The width of the screen is the same throughout. -/
theorem mScreenWidth_run (calls : List PageCall) :
    (calls.foldl step (start mScreenWidth)).page.mScreenWidth = mScreenWidth := by
  have hstart : (start mScreenWidth).page.mScreenWidth = mScreenWidth := rfl
  refine List.foldlRecOn (motive := fun display => display.page.mScreenWidth = mScreenWidth)
    calls step hstart fun display h call _ => ?_
  rw [mScreenWidth_step, h]

/-- What a renderer was laid out with last. -/
def standing (display : Display) (renderer : Nat) : Option LayoutParams :=
  (display.log.filterMap (PageEffect.paramsOf renderer)).getLast?

/-- What stands at the end of the log says where the renderers in it stand. -/
theorem standing_of_suffix {display : Display} {effects : List PageEffect} {renderer : Nat}
    (h : effects <:+ display.log)
    (hplaced : renderer ∈ effects.filterMap PageEffect.placedRenderer) :
    ∃ params, display.standing renderer = some params ∧
      .setLayoutParams renderer params ∈ effects := by
  obtain ⟨before, hlog⟩ := h
  obtain ⟨effect, heffect, hrenderer⟩ := List.mem_filterMap.mp hplaced
  obtain ⟨params, hparams⟩ := PageEffect.paramsOf_of_placedRenderer hrenderer
  rw [standing, ← hlog, List.filterMap_append, List.getLast?_append]
  cases hlast : (effects.filterMap (PageEffect.paramsOf renderer)).getLast? with
  | none =>
    have hnil := List.getLast?_eq_none_iff.mp hlast
    have hmem : params ∈ effects.filterMap (PageEffect.paramsOf renderer) :=
      List.mem_filterMap.mpr ⟨effect, heffect, hparams⟩
    rw [hnil] at hmem
    cases hmem
  | some params' =>
    obtain ⟨effect', heffect', hparams'⟩ := List.mem_filterMap.mp (List.mem_of_getLast? hlast)
    exact ⟨params', rfl, PageEffect.eq_of_paramsOf hparams' ▸ heffect'⟩

/-- The last thing that was done is to place every member anew. -/
def Placed (display : Display) : Prop := display.page.placings <:+ display.log

/-- A fresh call places every member anew, or raises and does nothing. -/
theorem Placed.step {display : Display} {call : PageCall} (h : display.Placed)
    (hr : display.Registered) (hfresh : display.Fresh call) : (display.step call).Placed := by
  cases call with
  | addView id stream =>
    rw [Placed, Display.step, after, PageCall.task, ChatGroupActivity.run_addView]
    refine List.IsSuffix.trans ?_ (List.suffix_append _ _)
    exact (List.suffix_append _ _).trans (List.suffix_cons _ _)
  | removeView userId =>
    rw [Placed, Display.step, after, PageCall.task, ChatGroupActivity.run_removeView]
    cases hinfos : User.remove ⟨userId⟩ display.page.infos with
    | ok infos => exact (List.suffix_append _ _).trans (List.suffix_append _ _)
    | error e =>
      -- only a null raises, and a fresh one has nothing that could be taken
      have hnone : userId = none := by
        cases userId with
        | none => rfl
        | some id =>
          rw [User.remove_of_some] at hinfos
          cases hinfos
      have hview : userId ∉ display.page.videoViews := hnone ▸ hfresh hnone
      have hsink : userId ∉ display.page.sinks := by
        rwa [← hr.matched.mem_sinks, hr.matched.mem_videoViews]
      have hnothing : display.page.releasing userId = [] := by
        rw [ChatGroupActivity.releasing, AList.lookup_eq_none.mpr hsink,
          AList.lookup_eq_none.mpr hview]
        rfl
      rw [hnothing, List.append_nil, ChatGroupActivity.taken_of_notMem hview hsink]
      exact h

/-- After a run of fresh calls the members have just been placed. -/
theorem placed_of_fresh {calls : List PageCall}
    (h : Along step Fresh (start mScreenWidth) calls) :
    (calls.foldl step (start mScreenWidth)).Placed := by
  have hrun : Reachable step Fresh (start mScreenWidth) (calls.foldl step (start mScreenWidth)) :=
    h.reachable .init
  exact (hrun.invariant (I := fun display =>
      (display.Registered ∧ display.Balanced) ∧ display.Placed)
    ⟨⟨start_registered mScreenWidth, List.Perm.nil⟩, List.suffix_rfl⟩
    fun display call hall hfresh =>
      ⟨hall.1.1.step hall.1.2 hfresh, hall.2.step hall.1.1 hfresh⟩).2

end Layout

end Display

end WebrtcCaller
