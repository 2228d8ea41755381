import WebrtcCaller.Server.Signalling
import WebrtcCaller.View.Tiles

/-!
# The page of a group call

`ChatGroupActivity` shows one renderer for each member of a group call. It keeps the
renderers and their sinks in two maps, the members in a list, and the renderers once more
as the children of a frame. The four are updated one after the other: the maps replace
what an id had, the list and the frame only append. What the page does to its renderers
and sinks is its output, in order; a renderer and the sink made with it share their
creation number.
-/

namespace WebrtcCaller

/-- A member of the call, as far as the page knows one. -/
structure User where
  id : Option String
  deriving DecidableEq, Repr

namespace User

/-- `this.getId().equals(..)` raises on a user without an id. -/
def equals (user other : User) : Except Raise Bool := do
  let id ← deref user.id
  return other.id = some id

/-- `infos.remove(user)`: the first equal entry goes. -/
def remove (user : User) : List User → Except Raise (List User)
  | [] => return []
  | other :: infos => do
    if ← user.equals other then
      return infos
    return other :: (← user.remove infos)

theorem id_injective : Function.Injective User.id := fun user other h => by
  cases user
  cases other
  exact congrArg User.mk h

/-- A member with an id is removed from the list. -/
theorem remove_of_some (id : String) (infos : List User) :
    User.remove ⟨some id⟩ infos = .ok (infos.erase ⟨some id⟩) := by
  induction infos with
  | nil => rfl
  | cons other infos ih =>
    have hequals : User.equals ⟨some id⟩ other = .ok (other == ⟨some id⟩) := by
      obtain ⟨id'⟩ := other
      have heq : decide (id' = some id) = ((⟨id'⟩ : User) == ⟨some id⟩) := by
        rw [Bool.eq_iff_iff, decide_eq_true_iff, beq_iff_eq, User.mk.injEq]
      exact congrArg Except.ok heq
    rw [remove, hequals, List.erase_cons, ih]
    cases other == ⟨some id⟩ <;> rfl

/-- Without an id, only the empty list can be searched. -/
theorem remove_of_none (infos : List User) :
    User.remove ⟨none⟩ infos = if infos = [] then .ok [] else .error .nullPointer := by
  cases infos <;> rfl

end User

/-- A stream, by the numbers of its video tracks. -/
structure MediaStream where
  videoTracks : List Nat

/-- The fields of `FrameLayout.LayoutParams` that the page sets. -/
structure LayoutParams where
  height : Int32
  width : Int32
  leftMargin : Int32
  topMargin : Int32
  deriving DecidableEq, Repr

/-- The square that a view is laid out in. -/
def LayoutParams.square (params : LayoutParams) : Square :=
  ⟨params.leftMargin.toInt, params.topMargin.toInt, params.width.toInt⟩

/-- What the page does to renderers, sinks and tracks. -/
inductive PageEffect where
  | setTarget (sink : Nat) (target : Option Nat)
  | addSink (track sink : Nat)
  | release (renderer : Nat)
  | setLayoutParams (renderer : Nat) (layoutParams : LayoutParams)
  | exitRoom
  deriving DecidableEq, Repr

/-- The renderer an effect releases. -/
def PageEffect.releasedRenderer : PageEffect → Option Nat
  | .release renderer => some renderer
  | _ => none

/-- The renderer an effect places. -/
def PageEffect.placedRenderer : PageEffect → Option Nat
  | .setLayoutParams renderer _ => some renderer
  | _ => none

/-- What the effect lays a renderer out with. -/
def PageEffect.paramsOf (renderer : Nat) : PageEffect → Option LayoutParams
  | .setLayoutParams renderer1 params => if renderer1 = renderer then some params else none
  | _ => none

/-- What places a renderer gives it its parameters. -/
theorem PageEffect.paramsOf_of_placedRenderer {effect : PageEffect} {renderer : Nat}
    (h : effect.placedRenderer = some renderer) : ∃ params,
      effect.paramsOf renderer = some params := by
  cases effect with
  | setLayoutParams renderer1 params => exact ⟨params, if_pos (Option.some.inj h)⟩
  | _ => cases h

/-- Parameters of a renderer are those an effect has given it. -/
theorem PageEffect.eq_of_paramsOf {effect : PageEffect} {renderer : Nat} {params : LayoutParams}
    (h : effect.paramsOf renderer = some params) : effect = .setLayoutParams renderer params := by
  cases effect with
  | setLayoutParams renderer1 params1 =>
    rw [paramsOf] at h
    split_ifs at h with heq
    rw [heq, Option.some.inj h]
  | _ => cases h

/-- The fields of the page; `wrVideoView` stands for the children of that frame. -/
structure ChatGroupActivity where
  videoViews : AList fun _ : Option String => Nat
  sinks : AList fun _ : Option String => Nat
  infos : List User
  wrVideoView : List Nat
  mScreenWidth : Int32
  /-- How many renderers have been created so far. -/
  created : Nat

/-- A callback of the page, run on the UI thread. -/
abbrev PageTask (α : Type) := Task ChatGroupActivity PageEffect Raise α

namespace ChatGroupActivity

/-- The place of the member `i` of `size`. -/
def layoutParams (mScreenWidth size i : Int32) : LayoutParams :=
  ⟨WidthUtil.getWidth mScreenWidth size, WidthUtil.getWidth mScreenWidth size,
    WidthUtil.getX mScreenWidth size i, WidthUtil.getY mScreenWidth size i⟩

/-- The body of the loop that ends both `addView` and `removeView`. -/
def relayout (size : Int32) (place : User × Nat) : PageTask Unit := do
  let page ← Task.get
  Task.whenSome (fun _ => page.videoViews.lookup place.1.id) fun renderer1 =>
    Task.emit (.setLayoutParams renderer1
      (layoutParams page.mScreenWidth size (Int32.ofNat place.2)))

/-- The loop over the members; it changes nothing but their places. -/
def layout : PageTask Unit := do
  let page ← Task.get
  page.infos.zipIdx.forM (relayout (Int32.ofNat page.infos.length))

/-- A renderer under the id, in the place of one that is there already. -/
def addView (id : Option String) (stream : MediaStream) : PageTask Unit := do
  let renderer := (← Task.get).created
  Task.modify fun page => { page with created := renderer + 1 }
  let sink := renderer
  Task.emit (.setTarget sink (some renderer))
  Task.whenSome (fun _ => stream.videoTracks.head?) fun track => Task.emit (.addSink track sink)
  Task.modify fun page => { page with videoViews := page.videoViews.insert id renderer }
  Task.modify fun page => { page with sinks := page.sinks.insert id sink }
  Task.modify fun page => { page with infos := page.infos ++ [⟨id⟩] }
  Task.modify fun page => { page with wrVideoView := page.wrVideoView ++ [renderer] }
  layout

/-- The renderer goes; a null id raises in the middle. -/
def removeView (userId : Option String) : PageTask Unit := do
  let sink := (← Task.get).sinks.lookup userId
  let renderer := (← Task.get).videoViews.lookup userId
  Task.whenSome (fun _ => sink) fun sink => Task.emit (.setTarget sink none)
  Task.whenSome (fun _ => renderer) fun renderer => Task.emit (.release renderer)
  Task.modify fun page => { page with sinks := page.sinks.erase userId }
  Task.modify fun page => { page with videoViews := page.videoViews.erase userId }
  let infos ← Task.ofExcept (User.remove ⟨userId⟩ (← Task.get).infos)
  Task.modify fun page => { page with infos := infos }
  -- the frame has no child that is null
  Task.whenSome (fun _ => renderer) fun renderer =>
    Task.modify fun page => { page with wrVideoView := page.wrVideoView.erase renderer }
  layout

/-- The renderers in the map are released, and the sinks are cut off. -/
def exit : PageTask Unit := do
  Task.emit .exitRoom
  (← Task.get).videoViews.entries.forM fun entry => Task.emit (.release entry.2)
  (← Task.get).sinks.entries.forM fun entry => Task.emit (.setTarget entry.2 none)
  Task.modify fun page => { page with videoViews := ∅ }
  Task.modify fun page => { page with sinks := ∅ }
  Task.modify fun page => { page with infos := [] }

/-- What the loop emits for a member and its place. -/
def placing (page : ChatGroupActivity) (place : User × Nat) : List PageEffect :=
  (page.videoViews.lookup place.1.id).toList.map fun renderer1 =>
    .setLayoutParams renderer1 (layoutParams page.mScreenWidth (Int32.ofNat page.infos.length)
      (Int32.ofNat place.2))

/-- What the whole loop emits. -/
def placings (page : ChatGroupActivity) : List PageEffect := page.infos.zipIdx.flatMap page.placing

/-- The loop emits the places and leaves the page as it is. -/
theorem run_layout (page : ChatGroupActivity) :
    layout.run page = ⟨.ok (), page, page.placings⟩ := by
  have hbody (place : User × Nat) : (relayout (Int32.ofNat page.infos.length) place).run page =
      ⟨.ok (), page, page.placing place⟩ := by
    rw [relayout, Task.run_bind, Task.run_get, Outcome.andThen_ok, Task.run_whenSome, placing]
    cases page.videoViews.lookup place.1.id <;> rfl
  rw [layout, Task.run_bind, Task.run_get, Outcome.andThen_ok, Task.run_forM_emit hbody]
  rfl

/-- A new renderer under an id, and everywhere else at the end. -/
def added (page : ChatGroupActivity) (id : Option String) : ChatGroupActivity :=
  { page with
    videoViews := page.videoViews.insert id page.created
    sinks := page.sinks.insert id page.created
    infos := page.infos ++ [⟨id⟩]
    wrVideoView := page.wrVideoView ++ [page.created]
    created := page.created + 1 }

/-- An added member gets a renderer, and everybody gets a new place. -/
theorem run_addView (id : Option String) (stream : MediaStream) (page : ChatGroupActivity) :
    (addView id stream).run page = ⟨.ok (), page.added id,
      .setTarget page.created (some page.created) ::
        (stream.videoTracks.head?.toList.map (.addSink · page.created) ++
          (page.added id).placings)⟩ := by
  cases htrack : stream.videoTracks.head? <;>
    simp [addView, htrack, run_layout, added]

/-- What `removeView` does to the sink and the renderer of an id. -/
def releasing (page : ChatGroupActivity) (id : Option String) : List PageEffect :=
  (page.sinks.lookup id).toList.map (.setTarget · none) ++
    (page.videoViews.lookup id).toList.map .release

/-- Both maps without an id. -/
def taken (page : ChatGroupActivity) (id : Option String) : ChatGroupActivity :=
  { page with videoViews := page.videoViews.erase id, sinks := page.sinks.erase id }

/-- The page without the renderer of an id, its list of members given. -/
def removed (page : ChatGroupActivity) (id : Option String) (infos : List User) :
    ChatGroupActivity :=
  { page.taken id with
    infos := infos
    wrVideoView := page.wrVideoView.diff (page.videoViews.lookup id).toList }

/-- A removed member gives its renderer up, and everybody else gets a new place. -/
theorem run_removeView (id : Option String) (page : ChatGroupActivity) :
    (removeView id).run page = match User.remove ⟨id⟩ page.infos with
      | .ok infos => ⟨.ok (), page.removed id infos,
          page.releasing id ++ (page.removed id infos).placings⟩
      | .error e => ⟨.error e, page.taken id, page.releasing id⟩ := by
  cases hsink : page.sinks.lookup id <;> cases hrenderer : page.videoViews.lookup id <;>
    cases hinfos : User.remove ⟨id⟩ page.infos <;>
    simp [removeView, hsink, hrenderer, hinfos, run_layout, releasing, taken, removed]

/-- An exit empties the maps and the list. -/
theorem run_exit (page : ChatGroupActivity) :
    exit.run page = ⟨.ok (), { page with videoViews := ∅, sinks := ∅, infos := [] },
      .exitRoom :: (page.videoViews.entries.map (fun entry => .release entry.2) ++
        page.sinks.entries.map fun entry => .setTarget entry.2 none)⟩ := by
  have hemit (effect : Nat → PageEffect) (entries : List (Sigma fun _ : Option String => Nat)) :
      Task.run (forM entries fun entry => (Task.emit (effect entry.2) : PageTask Unit)) page =
        ⟨.ok (), page, entries.map fun entry => effect entry.2⟩ := by
    rw [List.map_eq_flatMap]
    exact Task.run_forM_emit (fun entry => Task.run_emit (effect entry.2) page) entries
  have hrelease := hemit .release page.videoViews.entries
  have htarget := hemit (.setTarget · none) page.sinks.entries
  simp [exit, hrelease, htarget]

/-- The ids of the members, in the order of their tiles. -/
def ids (page : ChatGroupActivity) : List (Option String) := page.infos.map User.id

/-- The renderers in `videoViews`. -/
def held (page : ChatGroupActivity) : List Nat := page.videoViews.entries.map fun entry => entry.2

/-- The list, the two maps and the frame tell the same. -/
structure Matched (page : ChatGroupActivity) : Prop where
  nodup : page.ids.Nodup
  mem_videoViews : ∀ id, id ∈ page.ids ↔ id ∈ page.videoViews
  mem_sinks : ∀ id, id ∈ page.ids ↔ id ∈ page.sinks
  children : page.wrVideoView.Perm page.held

section Held

variable {page : ChatGroupActivity} {id : Option String}

/-- Taking a renderer out leaves the others in the map. -/
theorem held_perm (page : ChatGroupActivity) (id : Option String) :
    page.held.Perm ((page.videoViews.lookup id).toList ++ (page.taken id).held) := by
  have hperm := perm_lookup_erase (fun renderer : Nat => renderer) page.videoViews id
  rwa [List.map_id'] at hperm

/-- The new renderer is in the map, in the place of the old one. -/
theorem held_added (page : ChatGroupActivity) (id : Option String) :
    (page.added id).held = page.created :: (page.taken id).held := by
  rw [held, added, AList.entries_insert, List.map_cons]
  rfl

/-- A removal takes the renderer out. -/
theorem held_removed (page : ChatGroupActivity) (id : Option String) (infos : List User) :
    (page.removed id infos).held = (page.taken id).held := rfl

/-- Without an id in the map there is nothing to take. -/
theorem taken_held_of_notMem (hid : id ∉ page.videoViews) : (page.taken id).held = page.held := by
  have hentries := List.kerase_of_notMem_keys hid
  exact congrArg (List.map fun entry => entry.2) hentries

/-- Nothing is taken under an id that has no entry. -/
theorem taken_of_notMem (hview : id ∉ page.videoViews) (hsink : id ∉ page.sinks) :
    page.taken id = page := by
  have hviews : page.videoViews.erase id = page.videoViews :=
    AList.ext (List.kerase_of_notMem_keys hview)
  have hsinks : page.sinks.erase id = page.sinks := AList.ext (List.kerase_of_notMem_keys hsink)
  rw [taken, hviews, hsinks]

end Held

namespace Matched

variable {page : ChatGroupActivity} {id : Option String}

/-- A new id keeps list and maps matched. -/
theorem added (h : page.Matched) (hid : id ∉ page.videoViews) : (page.added id).Matched where
  nodup := by
    have hnew : id ∉ page.ids := fun hmem => hid ((h.mem_videoViews id).mp hmem)
    rw [ids, ChatGroupActivity.added, List.map_append, List.map_singleton, ← List.concat_eq_append]
    exact h.nodup.concat hnew
  mem_videoViews id' := by
    rw [ids, ChatGroupActivity.added, List.map_append, List.mem_append, AList.mem_insert, or_comm]
    exact or_congr List.mem_singleton (h.mem_videoViews id')
  mem_sinks id' := by
    rw [ids, ChatGroupActivity.added, List.map_append, List.mem_append, AList.mem_insert, or_comm]
    exact or_congr List.mem_singleton (h.mem_sinks id')
  children := by
    rw [held_added, taken_held_of_notMem hid]
    exact (List.perm_append_singleton _ _).trans (h.children.cons _)

/-- An id that is added twice stands in the list twice. -/
theorem not_added (h : page.Matched) (hid : id ∈ page.videoViews) :
    ¬(page.added id).ids.Nodup := by
  have hold : id ∈ page.ids := (h.mem_videoViews id).mpr hid
  rw [ids, ChatGroupActivity.added, List.map_append, List.map_singleton]
  exact fun hnodup => List.disjoint_of_nodup_append hnodup hold (List.mem_singleton_self id)

/-- A removal keeps list and maps matched. -/
theorem removed (h : page.Matched) (id : Option String) :
    (page.removed id (page.infos.erase ⟨id⟩)).Matched := by
  have hids : (page.removed id (page.infos.erase ⟨id⟩)).ids = page.ids.erase id :=
    List.map_erase User.id_injective page.infos
  constructor
  · rw [hids]
    exact h.nodup.erase id
  · intro id'
    rw [hids, h.nodup.mem_erase_iff, h.mem_videoViews]
    exact AList.mem_erase.symm
  · intro id'
    rw [hids, h.nodup.mem_erase_iff, h.mem_sinks]
    exact AList.mem_erase.symm
  · have hperm := h.children.trans (held_perm page id)
    have hdiff := hperm.diff_right (page.videoViews.lookup id).toList
    rw [held_removed, ChatGroupActivity.removed]
    cases hlookup : page.videoViews.lookup id with
    | none => simpa [hlookup] using hdiff
    | some renderer => simpa [hlookup] using hdiff

end Matched

section Places

variable {page : ChatGroupActivity}

/-- Looking all keys up gives all values. -/
theorem filterMap_lookup_keys (m : AList fun _ : Option String => Nat) :
    m.keys.filterMap m.lookup = m.entries.map fun entry => entry.2 := by
  rw [AList.keys, List.keys, List.filterMap_map, ← List.filterMap_eq_map]
  apply List.filterMap_congr
  intro entry hentry
  exact AList.mem_lookup_iff.mpr hentry

/-- The loop places the renderers that the listed ids have. -/
theorem filterMap_placedRenderer (page : ChatGroupActivity) :
    page.placings.filterMap PageEffect.placedRenderer =
      page.ids.filterMap page.videoViews.lookup := by
  have hplacing (place : User × Nat) : (page.placing place).filterMap PageEffect.placedRenderer =
      (page.videoViews.lookup place.1.id).toList := by
    rw [placing]
    cases page.videoViews.lookup place.1.id <;> rfl
  have hids : page.infos.zipIdx.map (User.id ∘ Prod.fst) = page.ids := by
    rw [← List.map_map, List.zipIdx_map_fst, ids]
  rw [placings, List.filterMap_flatMap, ← hids, List.filterMap_map,
    List.filterMap_eq_flatMap_toList]
  exact List.flatMap_congr fun place _ => hplacing place

/-- Every child of the frame is placed once. -/
theorem Matched.placed_perm (h : page.Matched) :
    (page.placings.filterMap PageEffect.placedRenderer).Perm page.wrVideoView := by
  have hkeys : page.ids.Perm page.videoViews.keys :=
    (List.perm_ext_iff_of_nodup h.nodup page.videoViews.keys_nodup).mpr h.mem_videoViews
  have hperm := hkeys.filterMap page.videoViews.lookup
  rw [filterMap_lookup_keys] at hperm
  rw [filterMap_placedRenderer]
  exact hperm.trans h.children.symm

/-- A place is that of a tile for a member with a renderer. -/
theorem mem_placings {renderer : Nat} {params : LayoutParams}
    (h : .setLayoutParams renderer params ∈ page.placings) :
    ∃ i, ∃ hi : i < page.infos.length, page.videoViews.lookup page.infos[i].id = some renderer ∧
      params.square = WidthUtil.tile page.mScreenWidth (Int32.ofNat page.infos.length)
        (Int32.ofNat i) := by
  obtain ⟨⟨user, i⟩, hplace, hmem⟩ := List.mem_flatMap.mp h
  obtain ⟨renderer1, hrenderer, heq⟩ := List.mem_map.mp hmem
  obtain ⟨rfl, rfl⟩ := PageEffect.setLayoutParams.inj heq
  obtain ⟨hi, huser⟩ := List.mem_zipIdx' hplace
  refine ⟨i, hi, ?_, rfl⟩
  rw [← huser]
  exact Option.mem_toList.mp hrenderer

section Screen

variable (hw : 0 ≤ page.mScreenWidth.toInt) (hw' : page.mScreenWidth.toInt < 2 ^ 30)
  (hlength : page.infos.length ≤ 9) {renderer renderer' : Nat} {params params' : LayoutParams}
  (h : .setLayoutParams renderer params ∈ page.placings)
include hw hw' hlength h

/-- Every place is on the screen. -/
theorem placings_inside :
    params.square.region ⊆ (⟨0, 0, page.mScreenWidth.toInt⟩ : Square).region := by
  obtain ⟨i, hi, -, hsquare⟩ := mem_placings h
  rw [hsquare]
  exact WidthUtil.tile_inside hw hw' hlength hi

/-- Two renderers have places apart. -/
theorem placings_apart (h' : .setLayoutParams renderer' params' ∈ page.placings)
    (hne : renderer ≠ renderer') :
    Disjoint (interior params.square.region) (interior params'.square.region) := by
  obtain ⟨i, hi, hlookup, hsquare⟩ := mem_placings h
  obtain ⟨j, hj, hlookup', hsquare'⟩ := mem_placings h'
  have hij : i ≠ j := by
    rintro rfl
    exact hne (Option.some.inj (hlookup.symm.trans hlookup'))
  rw [hsquare, hsquare']
  exact WidthUtil.tile_disjoint hw hw' hlength hi hj hij

end Screen

end Places

end ChatGroupActivity

end WebrtcCaller
