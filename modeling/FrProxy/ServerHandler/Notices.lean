import FrProxy.RegistryCache.Znodes
import FrProxy.ServerHandler.Watching

/-!
# Notices of a tree that changes

ZooKeeper keeps the watches that reads left behind.  A change of the tree takes
the watches on what changed away and sends a notice for each of them.  At any
time, what the cache misses or has in excess is either watched, or on its way.
-/

namespace FrProxy

/-- A watch that was triggered, and the type of the event. -/
abbrev Notice : Type :=
  Watch × ZkEventType

namespace ZkTree

variable {parse : String -> Option Json}

def addChild (t : ZkTree parse) (path node : String) (hnode : node ≠ "") : ZkTree parse where
  children := fun p => if p = path then t.children p ++ [node] else t.children p
  data := t.data
  named := by
    intro p hp
    split at hp
    · rcases List.mem_append.mp hp with hold | hnew
      · exact t.named p hold
      · exact hnode (List.mem_singleton.mp hnew).symm
    · exact t.named p hp

def removeChild (t : ZkTree parse) (path node : String) : ZkTree parse where
  children := fun p => if p = path then (t.children p).filter (· != node) else t.children p
  data := t.data
  named := by
    intro p hp
    split at hp
    · exact t.named p (List.mem_of_mem_filter hp)
    · exact t.named p hp

theorem children_addChild (t : ZkTree parse) {path node : String} (hnode : node ≠ "")
    (p : String) :
    (t.addChild path node hnode).children p =
      if p = path then t.children p ++ [node] else t.children p :=
  rfl

theorem children_removeChild (t : ZkTree parse) (path node p : String) :
    (t.removeChild path node).children p =
      if p = path then (t.children p).filter (· != node) else t.children p :=
  rfl

end ZkTree

namespace Watcher

theorem splitNode_instance (service : String) {node : String} (hnode : '/' ∉ node.toList) :
    splitNode (service ++ "/" ++ node) = (service, node) := by
  have htext : (service ++ "/" ++ node).toList.reverse =
      node.toList.reverse ++ '/' :: service.toList.reverse := by
    simp
  have hplain : forall ch, ch ∈ node.toList.reverse -> (ch != '/') = true := by
    intro ch hch
    simp only [bne_iff_ne, ne_eq]
    intro heq
    subst heq
    exact hnode (List.mem_reverse.mp hch)
  simp only [splitNode, htext, List.takeWhile_append_of_pos hplain,
    List.dropWhile_append_of_pos hplain]
  simp

theorem instance_inj {service service' node node' : String} (hnode : '/' ∉ node.toList)
    (hnode' : '/' ∉ node'.toList) (h : service ++ "/" ++ node = service' ++ "/" ++ node') :
    service = service' ∧ node = node' := by
  have hsplit := congrArg splitNode h
  rw [splitNode_instance service hnode, splitNode_instance service' hnode'] at hsplit
  exact Prod.mk.inj hsplit

end Watcher

namespace ServerHandler

instance (name : String) : Decidable (NodeName name) :=
  inferInstanceAs (Decidable (_ ∧ _))

/-- No service outside the tree has instances. -/
def Closed {parse : String -> Option Json} (t : ZkTree parse) : Prop :=
  forall name, t.children (servicePath name) ≠ [] -> name ∈ t.children root

/-- The znodes under the root are services, and those under the services instances. -/
structure Valid {parse : String -> Option Json} (t : ZkTree parse) : Prop where
  services : forall name, name ∈ t.children root -> NodeName name
  instances : forall service, service ∈ servicesOf t -> forall node, node ∈ t.children service ->
    NodeName node
  closed : Closed t

theorem mem_servicesOf {parse : String -> Option Json} {t : ZkTree parse} {name : String} :
    servicePath name ∈ servicesOf t <-> name ∈ t.children root := by
  constructor
  · intro h
    rcases List.mem_map.mp h with ⟨other, hother, heq⟩
    rw [<- servicePath_inj heq]
    exact hother
  · exact List.mem_map_of_mem

theorem closed_of_empty {parse : String -> Option Json} {t : ZkTree parse}
    (h : forall name, servicePath name ∉ servicesOf t -> t.children (servicePath name) = []) :
    Closed t := by
  intro name hchildren
  by_contra hout
  exact hchildren (h name fun hin => hout (mem_servicesOf.mp hin))

theorem Valid.empty {parse : String -> Option Json} {t : ZkTree parse} (h : Valid t)
    {name : String} (hout : servicePath name ∉ servicesOf t) :
    t.children (servicePath name) = [] := by
  by_contra hchildren
  exact hout (mem_servicesOf.mpr (h.closed name hchildren))

theorem servicePath_ne_instance {name other node : String} (hname : NodeName name)
    (hnode : '/' ∉ node.toList) : servicePath name ≠ servicePath other ++ "/" ++ node := by
  intro h
  have hroot := (Watcher.instance_inj hname.right hnode h).left
  exact servicePath_ne_root other hroot.symm

/-- What ZooKeeper holds: the tree, and for the session of the server its watches and notices. -/
structure Ensemble (parse : String -> Option Json) where
  tree : ZkTree parse
  /-- Watches that were not triggered yet. -/
  armed : List Watch
  /-- Notices on their way, in no order. -/
  notices : List Notice
  /-- The znodes that were deleted; no name is used again. -/
  gone : List String

namespace Ensemble

variable {parse : String -> Option Json} (z : Ensemble parse)

/-- Events trigger the watches that are there, each of them once. -/
def fire (fired : List Notice) : Ensemble parse where
  tree := z.tree
  armed := z.armed.filter fun watch => decide (watch ∉ fired.map Prod.fst)
  notices := z.notices ++ fired.filter fun notice => decide (notice.1 ∈ z.armed)
  gone := z.gone

def rootNotice : Notice :=
  ((.root, root), .child)

def childNotice (service : String) : Notice :=
  ((.service, service), .child)

def goneNotice (service node : String) : Notice :=
  ((.serviceInstance, service ++ "/" ++ node), .deleted)

def appear (name : String) : Ensemble parse :=
  if h : NodeName name ∧ name ∉ z.tree.children root ∧ servicePath name ∉ z.gone then
    { z.fire [rootNotice] with tree := z.tree.addChild root name h.left.left }
  else z

def vanish (name : String) : Ensemble parse :=
  if name ∈ z.tree.children root ∧ z.tree.children (servicePath name) = [] then
    { z.fire [((.service, servicePath name), .deleted), rootNotice] with
      tree := z.tree.removeChild root name
      gone := z.gone ++ [servicePath name] }
  else z

def join (name node : String) : Ensemble parse :=
  if h : NodeName node ∧ name ∈ z.tree.children root ∧
      node ∉ z.tree.children (servicePath name) ∧ servicePath name ++ "/" ++ node ∉ z.gone then
    { z.fire [childNotice (servicePath name)] with
      tree := z.tree.addChild (servicePath name) node h.left.left }
  else z

def leave (name node : String) : Ensemble parse :=
  if name ∈ z.tree.children root ∧ node ∈ z.tree.children (servicePath name) then
    { z.fire [goneNotice (servicePath name) node, childNotice (servicePath name)] with
      tree := z.tree.removeChild (servicePath name) node
      gone := z.gone ++ [servicePath name ++ "/" ++ node] }
  else z

variable {z} {cache : RegistryCache}

def Telling (gone : List String) (notice : Notice) : Prop :=
  notice = rootNotice ∨ (exists name, NodeName name ∧ notice = childNotice (servicePath name)) ∨
    (exists name, notice = ((.service, servicePath name), .deleted) ∧ servicePath name ∈ gone) ∨
    exists service node, '/' ∉ node.toList ∧ notice = goneNotice service node ∧
      service ++ "/" ++ node ∈ gone

/-- The cache has the instances of a service, each from a znode that is there. -/
def Complete (t : ZkTree parse) (cache : RegistryCache) (service : String) : Prop :=
  forall node, node ∈ t.children service ->
    exists r, r ∈ cache.list service ∧ r.endpoint = t.endpoint service node ∧
      r.ephemeral ∈ t.children service

/-- An entry is that of a znode that is there and watched, or the notice of its end is on its way. -/
structure Sound (z : Ensemble parse) (service : String) (r : Registry) : Prop where
  read : r.endpoint = z.tree.endpoint service r.ephemeral
  plain : '/' ∉ r.ephemeral.toList
  current : (service ∈ servicesOf z.tree ∧ r.ephemeral ∈ z.tree.children service ∧
      (.serviceInstance, service ++ "/" ++ r.ephemeral) ∈ z.armed) ∨
    goneNotice service r.ephemeral ∈ z.notices

/-- What is not in the cache as it is in the tree is on its way, and the rest is watched. -/
structure Informed (z : Ensemble parse) (cache : RegistryCache) : Prop where
  valid : Valid z.tree
  newServices : forall service, service ∈ servicesOf z.tree -> service ∉ z.gone
  newInstances : forall service, service ∈ servicesOf z.tree ->
    forall node, node ∈ z.tree.children service -> service ++ "/" ++ node ∉ z.gone
  told : forall notice, notice ∈ z.notices -> Telling z.gone notice
  root : (.root, root) ∈ z.armed ∨ rootNotice ∈ z.notices
  services : forall service, service ∈ servicesOf z.tree ->
    rootNotice ∈ z.notices ∨ childNotice service ∈ z.notices ∨
      ((.service, service) ∈ z.armed ∧ Complete z.tree cache service)
  entries : forall service r, r ∈ cache.list service -> Sound z service r

theorem mem_fire_notices {fired : List Notice} {notice : Notice} :
    notice ∈ (z.fire fired).notices <->
      notice ∈ z.notices ∨ notice ∈ fired ∧ notice.1 ∈ z.armed := by
  simp [fire]

theorem mem_fire_armed {fired : List Notice} {watch : Watch} :
    watch ∈ (z.fire fired).armed <-> watch ∈ z.armed ∧ watch ∉ fired.map Prod.fst := by
  simp [fire]

/-!
## Changes of the tree
-/

/--
A change keeps the cache informed if it tells of each service whose children it
changes and of each instance that it takes away.
-/
theorem Informed.change {z z' : Ensemble parse} (fired : List Notice) (h : Informed z cache)
    (harmed : z'.armed = (z.fire fired).armed) (hnotices : z'.notices = (z.fire fired).notices)
    (hdata : z'.tree.data = z.tree.data) (hvalid : Valid z'.tree)
    (hgone : forall path, path ∈ z.gone -> path ∈ z'.gone)
    (hnewServices : forall service, service ∈ servicesOf z'.tree -> service ∉ z'.gone)
    (hnewInstances : forall service, service ∈ servicesOf z'.tree ->
      forall node, node ∈ z'.tree.children service -> service ++ "/" ++ node ∉ z'.gone)
    (htold : forall notice, notice ∈ fired -> Telling z'.gone notice)
    (hroot : (Watcher.root, ServerHandler.root) ∈ fired.map Prod.fst -> rootNotice ∈ fired)
    (hservices : forall service, service ∈ servicesOf z'.tree -> rootNotice ∈ fired ∨
      service ∈ servicesOf z.tree ∧ (childNotice service ∈ fired ∨
        (Watcher.service, service) ∉ fired.map Prod.fst ∧
          z'.tree.children service = z.tree.children service))
    (hinstances : forall service, service ∈ servicesOf z.tree ->
      forall node, node ∈ z.tree.children service -> goneNotice service node ∈ fired ∨
        (Watcher.serviceInstance, service ++ "/" ++ node) ∉ fired.map Prod.fst ∧
          service ∈ servicesOf z'.tree ∧ node ∈ z'.tree.children service) :
    Informed z' cache := by
  have hkept : forall notice, notice ∈ z.notices -> notice ∈ z'.notices := by
    intro notice hnotice
    rw [hnotices]
    exact mem_fire_notices.mpr (Or.inl hnotice)
  have hsent : forall notice, notice ∈ fired -> notice.1 ∈ z.armed -> notice ∈ z'.notices := by
    intro notice hfired hwatch
    rw [hnotices]
    exact mem_fire_notices.mpr (Or.inr ⟨hfired, hwatch⟩)
  have hwatching : forall watch, watch ∈ z.armed -> watch ∉ fired.map Prod.fst ->
      watch ∈ z'.armed := by
    intro watch hwatch hother
    rw [harmed]
    exact mem_fire_armed.mpr ⟨hwatch, hother⟩
  have hendpoint : forall service node,
      z'.tree.endpoint service node = z.tree.endpoint service node := by
    intro service node
    simp [ZkTree.endpoint, hdata]
  have hrootTold : rootNotice ∈ fired -> rootNotice ∈ z'.notices := by
    intro hfired
    rcases h.root with hwatch | hpending
    · exact hsent rootNotice hfired hwatch
    · exact hkept rootNotice hpending
  refine ⟨hvalid, hnewServices, hnewInstances, ?_, ?_, ?_, ?_⟩
  · intro notice hnotice
    rw [hnotices] at hnotice
    rcases mem_fire_notices.mp hnotice with hold | ⟨hfired, _⟩
    · rcases h.told notice hold with hr | hc | ⟨name, heq, hmem⟩ | ⟨service, node, hp, heq, hmem⟩
      · exact Or.inl hr
      · exact Or.inr (Or.inl hc)
      · exact Or.inr (Or.inr (Or.inl ⟨name, heq, hgone _ hmem⟩))
      · exact Or.inr (Or.inr (Or.inr ⟨service, node, hp, heq, hgone _ hmem⟩))
    · exact htold notice hfired
  · by_cases hfired : (Watcher.root, ServerHandler.root) ∈ fired.map Prod.fst
    · exact Or.inr (hrootTold (hroot hfired))
    · exact h.root.imp (fun hwatch => hwatching _ hwatch hfired) (hkept _)
  · intro service hservice
    rcases hservices service hservice with hfired | ⟨hold, hchange⟩
    · exact Or.inl (hrootTold hfired)
    · rcases h.services service hold with hpending | hpending | ⟨hwatch, hcomplete⟩
      · exact Or.inl (hkept _ hpending)
      · exact Or.inr (Or.inl (hkept _ hpending))
      · rcases hchange with hfired | ⟨hother, hsame⟩
        · exact Or.inr (Or.inl (hsent _ hfired hwatch))
        · refine Or.inr (Or.inr ⟨hwatching _ hwatch hother, fun node hnode => ?_⟩)
          rw [hsame] at hnode ⊢
          rw [hendpoint]
          exact hcomplete node hnode
  · intro service r hr
    have hsound := h.entries service r hr
    refine ⟨by rw [hendpoint]; exact hsound.read, hsound.plain, ?_⟩
    -- The watch on an instance that goes is still there, so that its notice is sent.
    rcases hsound.current with ⟨hservice, hnode, hwatch⟩ | hpending
    · rcases hinstances service hservice r.ephemeral hnode with hfired | ⟨hother, hstays⟩
      · exact Or.inr (hsent _ hfired hwatch)
      · exact Or.inl ⟨hstays.left, hstays.right, hwatching _ hwatch hother⟩
    · exact Or.inr (hkept _ hpending)

section Changes

variable {t : ZkTree parse} {name node : String}

theorem services_addService (hname : name ≠ "") {other : String} :
    servicePath other ∈ servicesOf (t.addChild root name hname) <->
      servicePath other ∈ servicesOf t ∨ other = name := by
  rw [mem_servicesOf, mem_servicesOf, ZkTree.children_addChild, if_pos rfl, List.mem_append,
    List.mem_singleton]

theorem services_removeService {other : String} :
    servicePath other ∈ servicesOf (t.removeChild root name) <->
      servicePath other ∈ servicesOf t ∧ other ≠ name := by
  rw [mem_servicesOf, mem_servicesOf, ZkTree.children_removeChild, if_pos rfl, List.mem_filter,
    bne_iff_ne]

theorem services_addInstance (hnode : node ≠ "") :
    servicesOf (t.addChild (servicePath name) node hnode) = servicesOf t := by
  rw [servicesOf, servicesOf, ZkTree.children_addChild, if_neg (servicePath_ne_root name).symm]

theorem services_removeInstance :
    servicesOf (t.removeChild (servicePath name) node) = servicesOf t := by
  rw [servicesOf, servicesOf, ZkTree.children_removeChild, if_neg (servicePath_ne_root name).symm]

theorem instances_addService (hname : name ≠ "") (other : String) :
    (t.addChild root name hname).children (servicePath other) = t.children (servicePath other) := by
  rw [ZkTree.children_addChild, if_neg (servicePath_ne_root other)]

theorem instances_removeService (other : String) :
    (t.removeChild root name).children (servicePath other) = t.children (servicePath other) := by
  rw [ZkTree.children_removeChild, if_neg (servicePath_ne_root other)]

theorem exists_name {service : String} (h : service ∈ servicesOf t) :
    exists name, service = servicePath name := by
  rcases List.mem_map.mp h with ⟨name, _, rfl⟩
  exact ⟨name, rfl⟩

theorem valid_addService (h : Valid t) (hname : NodeName name) :
    Valid (t.addChild root name hname.left) where
  services := by
    intro other hother
    rcases (services_addService hname.left).mp (mem_servicesOf.mpr hother) with hold | rfl
    · exact h.services other (mem_servicesOf.mp hold)
    · exact hname
  instances := by
    intro service hservice node hnode
    rcases exists_name hservice with ⟨other, rfl⟩
    rw [instances_addService] at hnode
    by_cases hold : servicePath other ∈ servicesOf t
    · exact h.instances _ hold node hnode
    · rw [h.empty hold] at hnode
      cases hnode
  closed := by
    apply closed_of_empty
    intro other hother
    rw [instances_addService]
    exact h.empty fun hold => hother ((services_addService hname.left).mpr (Or.inl hold))

theorem valid_removeService (h : Valid t) (hempty : t.children (servicePath name) = []) :
    Valid (t.removeChild root name) where
  services := fun other hother =>
    h.services other (mem_servicesOf.mp (services_removeService.mp (mem_servicesOf.mpr hother)).left)
  instances := by
    intro service hservice node hnode
    rcases exists_name hservice with ⟨other, rfl⟩
    rw [instances_removeService] at hnode
    exact h.instances _ (services_removeService.mp hservice).left node hnode
  closed := by
    apply closed_of_empty
    intro other hother
    rw [instances_removeService]
    by_cases hsame : other = name
    · rw [hsame]
      exact hempty
    · exact h.empty fun hold => hother (services_removeService.mpr ⟨hold, hsame⟩)

theorem valid_addInstance (h : Valid t) (hname : name ∈ t.children root) (hnode : NodeName node) :
    Valid (t.addChild (servicePath name) node hnode.left) where
  services := by
    intro other hother
    rw [ZkTree.children_addChild, if_neg (servicePath_ne_root name).symm] at hother
    exact h.services other hother
  instances := by
    intro service hservice other hother
    rw [services_addInstance] at hservice
    rw [ZkTree.children_addChild] at hother
    split at hother
    · rcases List.mem_append.mp hother with hold | hnew
      · exact h.instances service hservice other hold
      · rw [List.mem_singleton.mp hnew]
        exact hnode
    · exact h.instances service hservice other hother
  closed := by
    apply closed_of_empty
    intro other hother
    rw [services_addInstance] at hother
    have hne : servicePath other ≠ servicePath name := fun heq =>
      hother (heq ▸ mem_servicesOf.mpr hname)
    rw [ZkTree.children_addChild, if_neg hne]
    exact h.empty hother

theorem valid_removeInstance (h : Valid t) : Valid (t.removeChild (servicePath name) node) where
  services := by
    intro other hother
    rw [ZkTree.children_removeChild, if_neg (servicePath_ne_root name).symm] at hother
    exact h.services other hother
  instances := by
    intro service hservice other hother
    rw [services_removeInstance] at hservice
    rw [ZkTree.children_removeChild] at hother
    split at hother
    · exact h.instances service hservice other (List.mem_of_mem_filter hother)
    · exact h.instances service hservice other hother
  closed := by
    apply closed_of_empty
    intro other hother
    rw [services_removeInstance] at hother
    rw [ZkTree.children_removeChild]
    split
    · rw [h.empty hother]
      rfl
    · exact h.empty hother

theorem Informed.appear (h : Informed z cache) (name : String) : Informed (z.appear name) cache := by
  unfold Ensemble.appear
  split
  case isFalse => exact h
  case isTrue hnew =>
    rcases hnew with ⟨hname, _, hunused⟩
    have hrootTold : rootNotice ∈ [rootNotice] := List.mem_singleton_self _
    refine h.change [rootNotice] rfl rfl rfl (valid_addService h.valid hname) (fun _ hp => hp) ?_ ?_
      ?_ (fun _ => hrootTold) (fun _ _ => Or.inl hrootTold) ?_
    · intro service hservice
      rcases exists_name hservice with ⟨other, rfl⟩
      rcases (services_addService hname.left).mp hservice with hold | rfl
      · exact h.newServices _ hold
      · exact hunused
    · intro service hservice node hnode
      rcases exists_name hservice with ⟨other, rfl⟩
      have hchildren : node ∈ z.tree.children (servicePath other) :=
        instances_addService hname.left other ▸ hnode
      by_cases hold : servicePath other ∈ servicesOf z.tree
      · exact h.newInstances _ hold node hchildren
      · rw [h.valid.empty hold] at hchildren
        cases hchildren
    · intro notice hnotice
      exact Or.inl (List.mem_singleton.mp hnotice)
    · intro service hservice node hnode
      rcases exists_name hservice with ⟨other, rfl⟩
      refine Or.inr ⟨by simp [rootNotice], ?_, ?_⟩
      · exact (services_addService hname.left).mpr (Or.inl hservice)
      · exact (instances_addService hname.left other).symm ▸ hnode

theorem Informed.vanish (h : Informed z cache) (name : String) : Informed (z.vanish name) cache := by
  unfold Ensemble.vanish
  split
  case isFalse => exact h
  case isTrue hleaves =>
    rcases hleaves with ⟨hname, hempty⟩
    have hrootTold : rootNotice ∈ [((.service, servicePath name), .deleted), rootNotice] :=
      List.mem_cons_of_mem _ (List.mem_singleton_self _)
    have hother : forall {other : String},
        servicePath other ∈ servicesOf (z.tree.removeChild ServerHandler.root name) ->
          servicePath other ∈ servicesOf z.tree ∧ servicePath other ≠ servicePath name :=
      fun hservice => (services_removeService.mp hservice).imp_right
        fun hne heq => hne (servicePath_inj heq)
    refine h.change [((.service, servicePath name), .deleted), rootNotice] rfl rfl rfl
      (valid_removeService h.valid hempty) (fun _ hp => List.mem_append_left _ hp) ?_ ?_ ?_
      (fun _ => hrootTold) (fun _ _ => Or.inl hrootTold) ?_
    · intro service hservice hgone
      rcases exists_name hservice with ⟨other, rfl⟩
      rcases List.mem_append.mp hgone with hold | hnow
      · exact h.newServices _ (hother hservice).left hold
      · exact (hother hservice).right (List.mem_singleton.mp hnow)
    · intro service hservice node hnode hgone
      rcases exists_name hservice with ⟨other, rfl⟩
      have hchildren : node ∈ z.tree.children (servicePath other) :=
        instances_removeService other ▸ hnode
      have hplain := (h.valid.instances _ (hother hservice).left node hchildren).right
      rcases List.mem_append.mp hgone with hold | hnow
      · exact h.newInstances _ (hother hservice).left node hchildren hold
      · exact servicePath_ne_instance (h.valid.services name hname) hplain
          (List.mem_singleton.mp hnow).symm
    · intro notice hnotice
      rcases List.mem_cons.mp hnotice with rfl | hrest
      · exact Or.inr (Or.inr (Or.inl ⟨name, rfl,
          List.mem_append_right _ (List.mem_singleton_self _)⟩))
      · exact Or.inl (List.mem_singleton.mp hrest)
    · intro service hservice node hnode
      rcases exists_name hservice with ⟨other, rfl⟩
      refine Or.inr ⟨by simp [rootNotice], services_removeService.mpr ⟨hservice, ?_⟩, ?_⟩
      · intro heq
        subst heq
        rw [hempty] at hnode
        cases hnode
      · exact (instances_removeService other).symm ▸ hnode

theorem Informed.join (h : Informed z cache) (name node : String) :
    Informed (z.join name node) cache := by
  unfold Ensemble.join
  split
  case isFalse => exact h
  case isTrue hnew =>
    rcases hnew with ⟨hnode, hname, _, hunused⟩
    have hservices : servicesOf (z.tree.addChild (servicePath name) node hnode.left) =
        servicesOf z.tree := services_addInstance hnode.left
    refine h.change [childNotice (servicePath name)] rfl rfl rfl
      (valid_addInstance h.valid hname hnode) (fun _ hp => hp) ?_ ?_ ?_ ?_ ?_ ?_
    · intro service hservice
      exact h.newServices service (hservices ▸ hservice)
    · intro service hservice other hother
      have hin : service ∈ servicesOf z.tree := hservices ▸ hservice
      rw [ZkTree.children_addChild] at hother
      split at hother
      · next heq =>
        subst heq
        rcases List.mem_append.mp hother with hold | hlast
        · exact h.newInstances _ hin other hold
        · rw [List.mem_singleton.mp hlast]
          exact hunused
      · exact h.newInstances service hin other hother
    · intro notice hnotice
      exact Or.inr (Or.inl ⟨name, h.valid.services name hname, List.mem_singleton.mp hnotice⟩)
    · intro hroot
      simp [childNotice] at hroot
    · intro service hservice
      refine Or.inr ⟨hservices ▸ hservice, ?_⟩
      by_cases hsame : service = servicePath name
      · exact Or.inl (hsame ▸ List.mem_singleton_self _)
      · refine Or.inr ⟨by simpa [childNotice] using hsame, if_neg hsame⟩
    · intro service hservice other hother
      refine Or.inr ⟨by simp [childNotice], hservices.symm ▸ hservice, ?_⟩
      rw [ZkTree.children_addChild]
      split
      · exact List.mem_append_left _ hother
      · exact hother

theorem Informed.leave (h : Informed z cache) (name node : String) :
    Informed (z.leave name node) cache := by
  unfold Ensemble.leave
  split
  case isFalse => exact h
  case isTrue hleaves =>
    rcases hleaves with ⟨hname, hnode⟩
    have hservices : servicesOf (z.tree.removeChild (servicePath name) node) =
        servicesOf z.tree := services_removeInstance
    have hplain := (h.valid.instances _ (mem_servicesOf.mpr hname) node hnode).right
    have hchild : childNotice (servicePath name) ∈
        [goneNotice (servicePath name) node, childNotice (servicePath name)] :=
      List.mem_cons_of_mem _ (List.mem_singleton_self _)
    refine h.change [goneNotice (servicePath name) node, childNotice (servicePath name)] rfl rfl rfl
      (valid_removeInstance h.valid) (fun _ hp => List.mem_append_left _ hp) ?_ ?_ ?_ ?_ ?_ ?_
    · intro service hservice hgone
      have hin : service ∈ servicesOf z.tree := hservices ▸ hservice
      rcases exists_name hin with ⟨other, rfl⟩
      rcases List.mem_append.mp hgone with hold | hnow
      · exact h.newServices _ hin hold
      · exact servicePath_ne_instance (h.valid.services other (mem_servicesOf.mp hin)) hplain
          (List.mem_singleton.mp hnow)
    · intro service hservice other hother hgone
      have hin : service ∈ servicesOf z.tree := hservices ▸ hservice
      rw [ZkTree.children_removeChild] at hother
      have hold : other ∈ z.tree.children service := by
        split at hother
        · exact List.mem_of_mem_filter hother
        · exact hother
      rcases List.mem_append.mp hgone with hbefore | hnow
      · exact h.newInstances service hin other hold hbefore
      · rcases Watcher.instance_inj (h.valid.instances service hin other hold).right hplain
          (List.mem_singleton.mp hnow) with ⟨rfl, rfl⟩
        simp at hother
    · intro notice hnotice
      rcases List.mem_cons.mp hnotice with rfl | hrest
      · exact Or.inr (Or.inr (Or.inr ⟨_, node, hplain, rfl,
          List.mem_append_right _ (List.mem_singleton_self _)⟩))
      · exact Or.inr (Or.inl ⟨name, h.valid.services name hname, List.mem_singleton.mp hrest⟩)
    · intro hroot
      simp [childNotice, goneNotice] at hroot
    · intro service hservice
      refine Or.inr ⟨hservices ▸ hservice, ?_⟩
      by_cases hsame : service = servicePath name
      · exact Or.inl (hsame ▸ hchild)
      · exact Or.inr ⟨by simpa [childNotice, goneNotice] using hsame, if_neg hsame⟩
    · intro service hservice other hother
      by_cases hsame : service = servicePath name ∧ other = node
      · rcases hsame with ⟨rfl, rfl⟩
        exact Or.inl List.mem_cons_self
      · refine Or.inr ⟨?_, hservices.symm ▸ hservice, ?_⟩
        · have hne : service ++ "/" ++ other ≠ servicePath name ++ "/" ++ node := fun heq =>
            hsame (Watcher.instance_inj (h.valid.instances service hservice other hother).right
              hplain heq)
          simpa [childNotice, goneNotice] using hne
        · rw [ZkTree.children_removeChild]
          split
          · next heq =>
            refine List.mem_filter.mpr ⟨hother, bne_iff_ne.mpr fun hlast => hsame ⟨heq, hlast⟩⟩
          · exact hother

end Changes

/-!
## Reads and removals
-/

/-- The watches and notices after a read that some of the notices led to. -/
def reread (z : Ensemble parse) (watches : List Watch) (notices : List Notice) : Ensemble parse :=
  { z with armed := z.armed ++ watches, notices := notices }

/-- What was read need not be told any more. -/
structure Answered (z : Ensemble parse) (services : List String) (watches : List Watch)
    (notices : List Notice) : Prop where
  fewer : forall notice, notice ∈ notices -> notice ∈ z.notices
  root : rootNotice ∈ z.notices -> rootNotice ∈ notices ∨
    (.root, root) ∈ watches ∧ forall service, service ∈ servicesOf z.tree -> service ∈ services
  services : forall service, service ∈ servicesOf z.tree -> childNotice service ∈ z.notices ->
    childNotice service ∈ notices ∨ service ∈ services
  gone : forall service node, goneNotice service node ∈ z.notices ->
    goneNotice service node ∈ notices

theorem answered_none (z : Ensemble parse) (services : List String) (watches : List Watch) :
    Answered z services watches z.notices where
  fewer := fun _ h => h
  root := fun h => Or.inl h
  services := fun _ _ h => Or.inl h
  gone := fun _ _ h => h

section Fetch

variable {services : List String} {watches : List Watch} {cache' : RegistryCache}

theorem complete_of_fetched {t : ZkTree parse} (h : Fetched t services watches cache cache')
    {service : String} (hread : service ∈ services) : Complete t cache' service := by
  intro node hnode
  have hfilled := h.filled service hread (List.ne_nil_of_mem hnode)
  rcases hfilled.complete node hnode with ⟨r, hr, hendpoint⟩
  exact ⟨r, hr, hendpoint, (hfilled.read r hr).left⟩

theorem sound_of_fetched (hvalid : Valid z.tree) (h : Fetched z.tree services watches cache cache')
    (hwatches : watches ⊆ z.armed) {service : String} (hread : service ∈ services)
    (hchildren : z.tree.children service ≠ []) {r : Registry} (hr : r ∈ cache'.list service) :
    Sound z service r := by
  have hservice := h.listed service hread
  rcases (h.filled service hread hchildren).read r hr with ⟨hnode, hendpoint, _⟩
  refine ⟨hendpoint, (hvalid.instances service hservice _ hnode).right,
    Or.inl ⟨hservice, hnode, hwatches (h.watched service hread ?_)⟩⟩
  exact List.mem_cons_of_mem _ (List.mem_map_of_mem hnode)

theorem Informed.reread {notices : List Notice} (h : Informed z cache)
    (hfetched : Fetched z.tree services watches cache cache')
    (hanswered : Answered z services watches notices) :
    Informed (z.reread watches notices) cache' where
  valid := h.valid
  newServices := h.newServices
  newInstances := h.newInstances
  told := fun notice hnotice => h.told notice (hanswered.fewer notice hnotice)
  root := by
    rcases h.root with hwatch | hpending
    · exact Or.inl (List.mem_append_left _ hwatch)
    · rcases hanswered.root hpending with hstays | ⟨hwatch, _⟩
      · exact Or.inr hstays
      · exact Or.inl (List.mem_append_right _ hwatch)
  services := by
    intro service hservice
    by_cases hread : service ∈ services
    · right
      right
      constructor
      · exact List.mem_append_right _ (hfetched.watched service hread List.mem_cons_self)
      · exact complete_of_fetched hfetched hread
    · rcases h.services service hservice with hpending | hpending | ⟨hwatch, hcomplete⟩
      · rcases hanswered.root hpending with hstays | ⟨_, hall⟩
        · exact Or.inl hstays
        · exact absurd (hall service hservice) hread
      · rcases hanswered.services service hservice hpending with hstays | hin
        · exact Or.inr (Or.inl hstays)
        · exact absurd hin hread
      · refine Or.inr (Or.inr ⟨List.mem_append_left _ hwatch, ?_⟩)
        unfold Complete
        rw [hfetched.kept service hservice hread]
        exact hcomplete
  entries := by
    intro service r hr
    by_cases hread : service ∈ services ∧ z.tree.children service ≠ []
    · exact sound_of_fetched (z := z.reread watches notices) h.valid hfetched
        (List.subset_append_right _ _) hread.left hread.right hr
    · -- The old list, or a part of it: a service without children keeps what it had.
      have hother : service ∉ services ∨ z.tree.children service = [] :=
        (not_and_or.mp hread).imp_right not_not.mp
      have hsound := h.entries service r (hfetched.shrunk service hother hr)
      refine ⟨hsound.read, hsound.plain, ?_⟩
      rcases hsound.current with ⟨hservice, hnode, hwatch⟩ | hpending
      · exact Or.inl ⟨hservice, hnode, List.mem_append_left _ hwatch⟩
      · exact Or.inr (hanswered.gone service _ hpending)

theorem informed_start {t : ZkTree parse} {armed : List Watch} (hvalid : Valid t)
    (hfetched : FetchedAll t watches cache cache') (hclean : OnlyRead t cache')
    (hwatches : watches ⊆ armed) :
    Informed { tree := t, armed := armed, notices := [], gone := [] } cache' where
  valid := hvalid
  newServices := fun _ _ => List.not_mem_nil
  newInstances := fun _ _ _ _ => List.not_mem_nil
  told := fun _ hnotice => absurd hnotice List.not_mem_nil
  root := Or.inl (hwatches hfetched.root)
  services := by
    intro service hservice
    have hwatched := hfetched.fetched.watched service hservice
    exact Or.inr (Or.inr ⟨hwatches (hwatched List.mem_cons_self),
      complete_of_fetched hfetched.fetched hservice⟩)
  entries := by
    intro service r hr
    by_cases hread : service ∈ servicesOf t ∧ t.children service ≠ []
    · exact sound_of_fetched hvalid hfetched.fetched hwatches hread.left hread.right hr
    · have hother : service ∉ servicesOf t ∨ t.children service = [] :=
        (not_and_or.mp hread).imp_right not_not.mp
      rw [hclean service hother] at hr
      cases hr

end Fetch

theorem Informed.mem_removeEphemeral (h : Informed z cache) {service node : String}
    {r : Registry} : r ∈ (cache.removeEphemeral service node).list service <->
      r ∈ cache.list service ∧ r.ephemeral ≠ node := by
  have hdistinct := (cache.filed service).distinct
  rw [RegistryCache.list_removeEphemeral, if_pos rfl,
    KeyedList.mem_eraseP_of_unique (List.Nodup.of_map _ hdistinct)]
  · simp
  · intro x hx y hy hpx hpy
    simp only [beq_iff_eq] at hpx hpy
    apply KeyedList.distinct_inj Registry.endpoint hdistinct hx hy
    rw [(h.entries service x hx).read, (h.entries service y hy).read, hpx, hpy]

theorem Informed.trimmed {notice : Notice} {cache' : RegistryCache} (h : Informed z cache)
    (hdeleted : notice.2 = .deleted)
    (hless : forall name, cache'.list name ⊆ cache.list name)
    (hkeep : forall service, service ∈ servicesOf z.tree -> forall r, r ∈ cache.list service ->
      r.ephemeral ∈ z.tree.children service -> r ∈ cache'.list service)
    (hdone : forall service r, r ∈ cache'.list service ->
      goneNotice service r.ephemeral ≠ notice) :
    Informed { z with notices := z.notices.erase notice } cache' where
  valid := h.valid
  newServices := h.newServices
  newInstances := h.newInstances
  told := fun other hother => h.told other (List.mem_of_mem_erase hother)
  root := by
    refine h.root.imp_right fun hpending => (List.mem_erase_of_ne ?_).mpr hpending
    intro heq
    subst heq
    cases hdeleted
  services := by
    intro service hservice
    rcases h.services service hservice with hpending | hpending | ⟨hwatch, hcomplete⟩
    · refine Or.inl ((List.mem_erase_of_ne ?_).mpr hpending)
      intro heq
      subst heq
      cases hdeleted
    · refine Or.inr (Or.inl ((List.mem_erase_of_ne ?_).mpr hpending))
      intro heq
      subst heq
      cases hdeleted
    · refine Or.inr (Or.inr ⟨hwatch, fun node hnode => ?_⟩)
      rcases hcomplete node hnode with ⟨r, hr, hendpoint, hthere⟩
      exact ⟨r, hkeep service hservice r hr hthere, hendpoint, hthere⟩
  entries := by
    intro service r hr
    have hsound := h.entries service r (hless service hr)
    refine ⟨hsound.read, hsound.plain, hsound.current.imp_right fun hpending => ?_⟩
    exact (List.mem_erase_of_ne (hdone service r hr)).mpr hpending

theorem Informed.dropped {watcher : Watcher} {path : String} (h : Informed z cache)
    (hnotice : ((watcher, path), .deleted) ∈ z.notices) :
    Informed { z with notices := z.notices.erase ((watcher, path), .deleted) }
      (watcher.drop path cache) := by
  apply h.trimmed rfl (list_drop_subset watcher path cache)
  · intro service hservice r hr hthere
    rcases h.told _ hnotice with heq | ⟨name, _, heq⟩ | ⟨name, heq, hgone⟩ |
      ⟨owner, node, hplain, heq, hgone⟩
    · cases heq
    · cases heq
    · cases heq
      have hne : servicePath name ≠ service := fun heq =>
        h.newServices service hservice (heq ▸ hgone)
      show r ∈ (cache.removeName (servicePath name)).list service
      rw [RegistryCache.list_removeName, if_neg hne]
      exact hr
    · cases heq
      show r ∈ (cache.removeEphemeral _ _).list service
      rw [Watcher.splitNode_instance owner hplain]
      by_cases hsame : owner = service
      · subst hsame
        refine h.mem_removeEphemeral.mpr ⟨hr, fun heq => ?_⟩
        exact h.newInstances owner hservice node ((show r.ephemeral = node from heq) ▸ hthere) hgone
      · rw [RegistryCache.list_removeEphemeral, if_neg hsame]
        exact hr
  · intro service r hr heq
    have hsound := h.entries service r (list_drop_subset watcher path cache service hr)
    cases heq
    rw [Watcher.drop, Watcher.splitNode_instance service hsound.plain] at hr
    exact (h.mem_removeEphemeral.mp hr).right rfl

theorem Informed.synced (h : Informed z cache) (hnone : z.notices = []) (p : Endpoint) :
    cache.Caches p <-> z.tree.Contains ServerHandler.root p := by
  have hno : forall {notice : Notice}, notice ∉ z.notices := by
    intro notice hnotice
    rw [hnone] at hnotice
    cases hnotice
  constructor
  · intro hpost
    rcases hpost with ⟨r, hr, rfl⟩
    have hsound := h.entries _ r hr
    rcases hsound.current with ⟨hservice, hnode, _⟩ | hpending
    · rcases List.mem_map.mp hservice with ⟨name, hname, hpath⟩
      exact ⟨⟨name, hname, hpath.symm⟩, r.ephemeral, hnode, hsound.read.symm⟩
    · exact absurd hpending hno
  · intro hpost
    rcases hpost with ⟨⟨name, hname, hpath⟩, node, hnode, hendpoint⟩
    have hservice : p.name ∈ servicesOf z.tree := hpath ▸ List.mem_map_of_mem hname
    rcases h.services p.name hservice with hpending | hpending | ⟨_, hcomplete⟩
    · exact absurd hpending hno
    · exact absurd hpending hno
    · rcases hcomplete node hnode with ⟨r, hr, hread, _⟩
      exact ⟨r, hr, hread.trans hendpoint⟩

end Ensemble

end ServerHandler

end FrProxy
