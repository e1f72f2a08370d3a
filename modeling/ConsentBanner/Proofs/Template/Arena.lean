import Mathlib.Data.List.Sort
import ConsentBanner.Proofs.Json.Fields
import ConsentBanner.Template.Arena

/-!
The table that the stack fills is the one that recursion through the forest gives. Its entries are numbered in document
order, they are linked as the components are, and the forest is found again along the links.
-/

namespace ConsentBanner

namespace Fields

variable {α : Type}

theorem get?_append (key : String) (fields more : List (String × α)) :
    get? key (fields ++ more) = (get? key fields).or (get? key more) := by
  induction fields with
  | nil => rfl
  | cons f rest ih =>
    rw [List.cons_append, get?, get?, ih]
    split
    · rfl
    · rfl

theorem get?_setDefault (k key : String) (v : α) (fields : List (String × α)) :
    get? key (setDefault k v fields) = (get? key fields).or (if k == key then some v else none) := by
  rw [setDefault]
  split
  · rename_i hhas
    by_cases hk : k = key
    · subst hk
      rw [has, Option.isSome_iff_exists] at hhas
      obtain ⟨w, hw⟩ := hhas
      rw [hw, Option.some_or]
    · rw [if_neg (by simpa using hk), Option.or_none]
  · rw [get?_append, get?, get?]

end Fields

theorem modify_append_left {α : Type} {i : Nat} {l : List α} (h : i < l.length) (f : α → α) (more : List α) :
    (l ++ more).modify i f = l.modify i f ++ more := by
  induction l generalizing i with
  | nil => exact absurd h (Nat.not_lt_zero i)
  | cons x l ih =>
    cases i with
    | zero => rfl
    | succ i =>
      rw [List.cons_append, List.modify_succ_cons, List.modify_succ_cons, ih (Nat.lt_of_succ_lt_succ h),
        List.cons_append]

theorem modify_length {α : Type} (l : List α) (f : α → α) (x : α) :
    (l ++ [x]).modify l.length f = l ++ [f x] := by
  induction l with
  | nil => rfl
  | cons y l ih => rw [List.cons_append, List.length_cons, List.modify_succ_cons, ih, List.cons_append]

namespace Component

/-- The places of neighbouring trees when the first begins at the given one. -/
def places (start : Nat) : List Component → List Nat
  | [] => []
  | c :: rest => start :: places (start + c.size) rest

mutual

/-- The entries of a tree that begins at the given place. -/
def entries (index : Nat) (parent : Option Nat) (depth : Nat) : Component → List ArenaNode
  | node data children =>
    ⟨index, node data children, parent, depth, places (index + 1) children⟩ ::
      entriesAll (index + 1) (some index) (depth + 1) children

def entriesAll (start : Nat) (parent : Option Nat) (depth : Nat) : List Component → List ArenaNode
  | [] => []
  | c :: rest => entries start parent depth c ++ entriesAll (start + c.size) parent depth rest

end

mutual

theorem length_entries {start : Nat} {parent : Option Nat} {depth : Nat} :
    (c : Component) → (entries start parent depth c).length = c.size
  | .node _ children => by rw [entries, List.length_cons, length_entriesAll children, size, Nat.add_comm]

theorem length_entriesAll {start : Nat} {parent : Option Nat} {depth : Nat} :
    (cs : List Component) → (entriesAll start parent depth cs).length = sizeAll cs
  | [] => by rw [entriesAll, sizeAll, List.length_nil]
  | c :: cs => by rw [entriesAll, sizeAll, List.length_append, length_entries c, length_entriesAll cs]

end

end Component

namespace Arena

open Component

section Walk

variable {a : Arena} {parent : Option Nat} {depth : Nat}

/-- The table with further entries at its end. -/
def enter (ns : List ArenaNode) (a : Arena) : Arena :=
  { a with
    nodes := a.nodes ++ ns
    byId := ns.foldl (fun table n => Fields.setDefault n.data.id n.index table) a.byId }

/-- The table with further links from a parent, or further roots. -/
def adopt (indices : List Nat) : Option Nat → Arena → Arena
  | none, a => { a with roots := a.roots ++ indices }
  | some p, a => { a with nodes := a.nodes.modify p fun n => { n with children := n.children ++ indices } }

theorem size_enter (ns : List ArenaNode) : (a.enter ns).size = a.size + ns.length := List.length_append

theorem size_adopt (indices : List Nat) : (a.adopt indices parent).size = a.size := by
  cases parent with
  | none => rfl
  | some p => exact List.length_modify _ _ _

theorem enter_enter (ns ms : List ArenaNode) : (a.enter ns).enter ms = a.enter (ns ++ ms) := by
  rw [enter, enter, enter, List.append_assoc, List.foldl_append]

theorem adopt_adopt (is js : List Nat) : (a.adopt is parent).adopt js parent = a.adopt (is ++ js) parent := by
  cases parent with
  | none => rw [adopt, adopt, adopt, List.append_assoc]
  | some p =>
    rw [adopt, adopt, adopt, List.modify_modify_eq]
    simp only [Function.comp_def, List.append_assoc]

theorem adopt_enter (h : ∀ p, parent = some p → p < a.size) (is : List Nat) (ns : List ArenaNode) :
    (a.enter ns).adopt is parent = (a.adopt is parent).enter ns := by
  cases parent with
  | none => rfl
  | some p =>
    rw [adopt, adopt, enter, enter]
    simp only [modify_append_left (h p rfl)]

theorem adopt_last (is : List Nat) (n : ArenaNode) :
    (a.enter [n]).adopt is (some a.size) = a.enter [{ n with children := n.children ++ is }] := by
  rw [adopt, enter, enter, size]
  simp only [modify_length]
  rfl

/-- The table once a forest has been entered under a parent. -/
def grown (a : Arena) (parent : Option Nat) (depth : Nat) (cs : List Component) : Arena :=
  (a.adopt (places a.size cs) parent).enter (entriesAll a.size parent depth cs)

theorem size_grown (cs : List Component) : (a.grown parent depth cs).size = a.size + sizeAll cs := by
  rw [grown, size_enter, size_adopt, length_entriesAll]

theorem grown_nil : a.grown parent depth [] = a := by
  rw [grown, places, entriesAll]
  cases parent with
  | none => simp only [adopt, enter, List.append_nil, List.foldl_nil]
  | some p =>
    simp only [adopt, enter, List.append_nil, List.foldl_nil]
    rw [show (fun n : ArenaNode => { n with children := n.children }) = id from rfl, List.modify_id]

theorem grown_cons (h : ∀ p, parent = some p → p < a.size) (c : Component) (cs : List Component) :
    (a.grown parent depth [c]).grown parent depth cs = a.grown parent depth (c :: cs) := by
  have hparent : ∀ p, parent = some p → p < (a.adopt [a.size] parent).size := by
    intro p hp
    rw [size_adopt]
    exact h p hp
  have hsize : (a.grown parent depth [c]).size = a.size + c.size := by
    rw [size_grown, sizeAll, sizeAll, Nat.add_zero]
  rw [grown, hsize, grown, grown, places, places, entriesAll, entriesAll, List.append_nil, adopt_enter hparent,
    adopt_adopt, enter_enter, places, entriesAll, List.singleton_append]

theorem visit_grown (h : ∀ p, parent = some p → p < a.size) (data : ComponentData) (children : List Component) :
    (a.visit (.node data children) (parent, depth)).1.grown (some a.size) (depth + 1) children =
      a.grown parent depth [.node data children] := by
  have hadd : (a.visit (.node data children) (parent, depth)).1 =
      (a.adopt [a.size] parent).enter [⟨a.size, .node data children, parent, depth, []⟩] := by
    rw [← adopt_enter h]
    cases parent with
    | none => rfl
    | some p => rfl
  have hlast := (a.adopt [a.size] parent).adopt_last (places (a.size + 1) children)
    ⟨a.size, .node data children, parent, depth, []⟩
  rw [size_adopt] at hlast
  rw [hadd, grown, size_enter, size_adopt, List.length_singleton, hlast, enter_enter, List.singleton_append,
    List.nil_append, grown, places, places, entriesAll, entriesAll, List.append_nil, entries]

mutual

theorem walk_node : (c : Component) → {a : Arena} → {parent : Option Nat} → {depth : Nat} →
    (∀ p, parent = some p → p < a.size) → (stack : List (Component × Option Nat × Nat)) →
    walk visit ((c, parent, depth) :: stack) a = walk visit stack (a.grown parent depth [c])
  | .node data children, a, parent, depth, h, stack => by
    have hsize : (a.visit (.node data children) (parent, depth)).1.size = a.size + 1 := by
      cases parent with
      | none => exact List.length_append
      | some p => exact (List.length_modify _ _ _).trans List.length_append
    rw [walk]
    change walk visit (push (some a.size, depth + 1) children stack) (a.visit _ (parent, depth)).1 = _
    rw [walk_push children, visit_grown h]
    intro p hp
    cases hp
    rw [hsize]
    exact Nat.lt_succ_self _

/-- Components on top of the stack are entered one after the other, each with all that is inside it. -/
theorem walk_push : (cs : List Component) → {a : Arena} → {parent : Option Nat} → {depth : Nat} →
    (∀ p, parent = some p → p < a.size) → (stack : List (Component × Option Nat × Nat)) →
    walk visit (push (parent, depth) cs stack) a = walk visit stack (a.grown parent depth cs)
  | [], a, parent, depth, _, stack => by
    rw [grown_nil]
    rfl
  | c :: cs, a, parent, depth, h, stack => by
    rw [push, List.foldr_cons, ← push, walk_node c h, walk_push cs, grown_cons h]
    intro p hp
    rw [size_grown]
    exact Nat.lt_add_right _ (h p hp)

end

theorem ofComponents_eq_grown (cs : List Component) : ofComponents cs = grown {} none 0 cs := by
  rw [ofComponents, walk_push cs _ [], walk]
  intro p hp
  cases hp

theorem nodes_ofComponents (cs : List Component) : (ofComponents cs).nodes = entriesAll 0 none 0 cs := by
  rw [ofComponents_eq_grown]
  rfl

theorem roots_ofComponents (cs : List Component) : (ofComponents cs).roots = places 0 cs := by
  rw [ofComponents_eq_grown]
  rfl

theorem byId_ofComponents (cs : List Component) : (ofComponents cs).byId =
    (ofComponents cs).nodes.foldl (fun table n => Fields.setDefault n.data.id n.index table) [] := by
  rw [ofComponents_eq_grown]
  rfl

end Walk

end Arena

namespace Component

mutual

/-- The components of a tree in document order. -/
def preorder : Component → List Component
  | node data children => node data children :: preorderAll children

def preorderAll : List Component → List Component
  | [] => []
  | c :: rest => c.preorder ++ preorderAll rest

end

mutual

/-- The number of levels of a tree. -/
def levels : Component → Nat
  | node _ children => 1 + levelsAll children

def levelsAll : List Component → Nat
  | [] => 0
  | c :: rest => max c.levels (levelsAll rest)

end

section

variable {start : Nat} {parent : Option Nat} {depth : Nat}

mutual

theorem map_component_entries {start : Nat} {parent : Option Nat} {depth : Nat} :
    (c : Component) → (entries start parent depth c).map (·.component) = c.preorder
  | .node _ children => by rw [entries, List.map_cons, map_component_entriesAll children, preorder]

theorem map_component_entriesAll {start : Nat} {parent : Option Nat} {depth : Nat} :
    (cs : List Component) → (entriesAll start parent depth cs).map (·.component) = preorderAll cs
  | [] => by rw [entriesAll, preorderAll, List.map_nil]
  | c :: cs => by
    rw [entriesAll, preorderAll, List.map_append, map_component_entries c, map_component_entriesAll cs]

end

mutual

theorem map_index_entries {start : Nat} {parent : Option Nat} {depth : Nat} :
    (c : Component) → (entries start parent depth c).map (·.index) = List.range' start c.size
  | .node _ children => by
    rw [entries, List.map_cons, map_index_entriesAll children, size, Nat.add_comm 1, List.range'_succ]

theorem map_index_entriesAll {start : Nat} {parent : Option Nat} {depth : Nat} :
    (cs : List Component) → (entriesAll start parent depth cs).map (·.index) = List.range' start (sizeAll cs)
  | [] => by rw [entriesAll, sizeAll, List.map_nil, List.range'_zero]
  | c :: cs => by
    rw [entriesAll, sizeAll, List.map_append, map_index_entries c, map_index_entriesAll cs, List.range'_append_1]

end

mutual

theorem foldl_depth_entries {start : Nat} {parent : Option Nat} : (c : Component) → {depth deepest : Nat} →
    depth ≤ deepest + 1 →
    (entries start parent depth c).foldl (fun d n => max d n.depth) deepest = max deepest (depth + c.levels - 1)
  | .node _ children, depth, deepest, h => by
    rw [entries, List.foldl_cons]
    change (entriesAll _ _ _ children).foldl _ (max deepest depth) = _
    rw [foldl_depth_entriesAll children (by omega), levels]
    omega

/-- The greatest depth among the entries of a forest that is entered below the deepest entry so far. -/
theorem foldl_depth_entriesAll {start : Nat} {parent : Option Nat} : (cs : List Component) → {depth deepest : Nat} →
    depth ≤ deepest + 1 →
    (entriesAll start parent depth cs).foldl (fun d n => max d n.depth) deepest =
      max deepest (depth + levelsAll cs - 1)
  | [], depth, deepest, h => by
    rw [entriesAll, List.foldl_nil, levelsAll]
    omega
  | c :: cs, depth, deepest, h => by
    rw [entriesAll, List.foldl_append, foldl_depth_entries c h, foldl_depth_entriesAll cs (by omega), levelsAll]
    omega

end

end

theorem size_pos : (c : Component) → 0 < c.size
  | .node _ children => by
    rw [size]
    omega

theorem le_of_mem_places {i start : Nat} {cs : List Component} (h : i ∈ places start cs) : start ≤ i := by
  induction cs generalizing start with
  | nil => cases h
  | cons c cs ih =>
    rw [places, List.mem_cons] at h
    obtain rfl | h := h
    · exact Nat.le_refl _
    · exact (Nat.le_add_right _ _).trans (ih h)

theorem pairwise_places (start : Nat) (cs : List Component) : (places start cs).Pairwise (· < ·) := by
  induction cs generalizing start with
  | nil => exact .nil
  | cons c cs ih =>
    rw [places, List.pairwise_cons]
    refine ⟨fun i hi => ?_, ih _⟩
    have hle := le_of_mem_places hi
    have hpos := c.size_pos
    omega

end Component

namespace Arena

open Component

/-- An entry stands at its index, below its parent, and names the entries of the components inside its own. -/
structure Linked (a : Arena) (n : ArenaNode) : Prop where
  entry : a.nodes[n.index]? = some n
  root : n.parent = none → n.depth = 0 ∧ n.index ∈ a.roots
  inner : ∀ p, n.parent = some p →
    p < n.index ∧ ∃ m, a.nodes[p]? = some m ∧ n.depth = m.depth + 1 ∧ n.index ∈ m.children
  children : n.children.map (fun i => (a.nodes[i]?).map fun m => (m.component, m.parent)) =
    n.component.children.map fun c => some (c, some n.index)
  ordered : n.children.Pairwise (· < ·)

section Linked

variable {a : Arena} {start : Nat} {parent : Option Nat} {depth : Nat}

/-- A place is one for an entry with the given parent and depth. -/
def Admits (a : Arena) (parent : Option Nat) (depth i : Nat) : Prop :=
  (parent = none → depth = 0 ∧ i ∈ a.roots) ∧
    ∀ p, parent = some p → p < i ∧ ∃ m, a.nodes[p]? = some m ∧ depth = m.depth + 1 ∧ i ∈ m.children

/-- Entries stand in the table from a place on. -/
def Holds (a : Arena) (start : Nat) (ns : List ArenaNode) : Prop := ns <+: a.nodes.drop start

theorem Holds.head {n : ArenaNode} {ns : List ArenaNode} (h : a.Holds start (n :: ns)) : a.nodes[start]? = some n := by
  obtain ⟨rest, hrest⟩ := h
  have hget : (a.nodes.drop start)[0]? = a.nodes[start]? := List.getElem?_drop
  rw [← hrest] at hget
  exact hget.symm

theorem Holds.left {ns ms : List ArenaNode} (h : a.Holds start (ns ++ ms)) : a.Holds start ns :=
  (List.prefix_append ns ms).trans h

theorem Holds.right {ns ms : List ArenaNode} (h : a.Holds start (ns ++ ms)) : a.Holds (start + ns.length) ms := by
  obtain ⟨rest, hrest⟩ := h
  refine ⟨rest, ?_⟩
  rw [← List.drop_drop, ← hrest, List.append_assoc, List.drop_left]

theorem map_places : (cs : List Component) → {start : Nat} → a.Holds start (entriesAll start parent depth cs) →
    (places start cs).map (fun i => (a.nodes[i]?).map fun m => (m.component, m.parent)) =
      cs.map fun c => some (c, parent)
  | [], _, _ => rfl
  | .node data children :: cs, start, h => by
    rw [entriesAll] at h
    have hrest := h.right
    rw [length_entries] at hrest
    have hhead := h.left
    rw [entries] at hhead
    rw [places, List.map_cons, List.map_cons, map_places cs hrest, hhead.head, Option.map_some]

mutual

theorem linked_entries : (c : Component) → {start : Nat} → {parent : Option Nat} → {depth : Nat} →
    a.Holds start (entries start parent depth c) → a.Admits parent depth start →
    ∀ n ∈ entries start parent depth c, a.Linked n
  | .node data children, start, parent, depth, h, hplace => by
    rw [entries] at h ⊢
    have hentry := h.head
    have hinside : a.Holds (start + 1) (entriesAll (start + 1) (some start) (depth + 1) children) :=
      Holds.right (List.singleton_append ▸ h)
    rw [List.forall_mem_cons]
    constructor
    · exact ⟨hentry, hplace.1, hplace.2, map_places children hinside, pairwise_places _ _⟩
    · refine linked_entriesAll children hinside fun i hi => ⟨nofun, fun p hp => ?_⟩
      cases hp
      exact ⟨le_of_mem_places hi, _, hentry, rfl, hi⟩

/-- The entries of a forest are linked where they stand, when its trees stand where their parent names them. -/
theorem linked_entriesAll : (cs : List Component) → {start : Nat} → {parent : Option Nat} → {depth : Nat} →
    a.Holds start (entriesAll start parent depth cs) → (∀ i ∈ places start cs, a.Admits parent depth i) →
    ∀ n ∈ entriesAll start parent depth cs, a.Linked n
  | [], _, _, _, _, _ => by
    rw [entriesAll]
    exact List.forall_mem_nil _
  | c :: cs, start, parent, depth, h, hplaces => by
    rw [entriesAll] at h ⊢
    rw [places, List.forall_mem_cons] at hplaces
    have hrest := h.right
    rw [length_entries] at hrest
    rw [List.forall_mem_append]
    exact ⟨linked_entries c h.left hplaces.1, linked_entriesAll cs hrest hplaces.2⟩

end

end Linked

/-- The tree whose entry has an index, put together from the entries that it names and that come after its own. -/
def treeAt : List ArenaNode → Nat → Option Component
  | [], _ => none
  | n :: rest, i =>
    if n.index == i then some (.node n.data (n.children.filterMap (treeAt rest))) else treeAt rest i

/-- The forest that the links of a table lead to. -/
def forest (a : Arena) : List Component := a.roots.filterMap (treeAt a.nodes)

/-- A table that stands for a forest. -/
structure Represents (a : Arena) (cs : List Component) : Prop where
  preorder : a.nodes.map (·.component) = preorderAll cs
  numbered : a.nodes.map (·.index) = List.range (sizeAll cs)
  linked : ∀ n ∈ a.nodes, a.Linked n
  roots : a.roots.map (fun i => (a.nodes[i]?).map fun m => (m.component, m.parent)) = cs.map fun c => some (c, none)
  /-- The roots, and the children of an entry, are all entries with that parent, in document order. -/
  siblings : a.roots = (a.nodes.filter (·.parent == none)).map (·.index) ∧
    ∀ n ∈ a.nodes, n.children = (a.nodes.filter (·.parent == some n.index)).map (·.index)
  rebuilt : a.forest = cs
  height : a.maxDepth = levelsAll cs - 1
  first : ∀ id, a.find? id = a.nodes.find? (·.data.id == id)
  actions : ∀ name, (a.findActions name).map (·.component) =
    (preorderAll cs).filter fun c => Named.name c.data.action.kind == name

section OfComponents

variable {a : Arena}

theorem filterMap_eq_of_map {α β : Type} {f : α → Option β} {l : List α} {bs : List β}
    (h : l.map f = bs.map some) : l.filterMap f = bs := by
  calc l.filterMap f = (l.map f).filterMap id := by rw [List.filterMap_map, Function.id_comp]
    _ = bs := by rw [h, List.filterMap_map, Function.id_comp, List.filterMap_some]

/-- Links to entries that come later, and that are put together already, give the components. -/
theorem map_treeAt {ns : List ArenaNode} {links : List Nat} {cs : List Component} {parent : Option Nat}
    (hlinks : links.map (fun i => (a.nodes[i]?).map fun m => (m.component, m.parent)) =
      cs.map fun c => some (c, parent))
    (htrees : ∀ i ∈ links, ∀ m, a.nodes[i]? = some m → m.parent = parent → treeAt ns i = some m.component) :
    links.filterMap (treeAt ns) = cs := by
  apply filterMap_eq_of_map
  induction links generalizing cs with
  | nil =>
    rw [List.map_nil, eq_comm, List.map_eq_nil_iff] at hlinks
    rw [hlinks]
    rfl
  | cons i links ih =>
    cases cs with
    | nil => cases hlinks
    | cons c cs =>
      rw [List.map_cons, List.map_cons, List.cons.injEq, Option.map_eq_some_iff] at hlinks
      obtain ⟨⟨m, hm, hpair⟩, hrest⟩ := hlinks
      cases hpair
      rw [List.forall_mem_cons] at htrees
      rw [List.map_cons, List.map_cons, htrees.1 m hm rfl, ih hrest htrees.2]

theorem mem_of_index_lt (hsorted : a.nodes.Pairwise (·.index < ·.index)) {before ns : List ArenaNode} {n m : ArenaNode}
    (hnodes : a.nodes = before ++ n :: ns) (hm : m ∈ a.nodes) (hlt : n.index < m.index) : m ∈ ns := by
  rw [hnodes, List.pairwise_append] at hsorted
  rw [hnodes, List.mem_append, List.mem_cons] at hm
  obtain hm | rfl | hm := hm
  · exact absurd (hsorted.2.2 m hm n (.head _)) hlt.asymm
  · exact absurd hlt (Nat.lt_irrefl _)
  · exact hm

theorem index_of_getElem? {n : Nat} (h : a.nodes.map (·.index) = List.range n) {i : Nat} {m : ArenaNode}
    (hm : a.nodes[i]? = some m) : m.index = i := by
  have hget : (a.nodes.map (·.index))[i]? = some m.index := by rw [List.getElem?_map, hm, Option.map_some]
  rw [h, List.getElem?_eq_some_iff] at hget
  obtain ⟨_, hi⟩ := hget
  rw [List.getElem_range] at hi
  exact hi.symm

theorem sorted_of_numbered {n : Nat} (h : a.nodes.map (·.index) = List.range n) :
    a.nodes.Pairwise (·.index < ·.index) := by
  rw [← List.pairwise_map (R := (· < ·)), h]
  exact List.pairwise_lt_range

theorem treeAt_index {size : Nat} (hnumbered : a.nodes.map (·.index) = List.range size)
    (hlinked : ∀ n ∈ a.nodes, a.Linked n) : (ns before : List ArenaNode) → a.nodes = before ++ ns →
    ∀ n ∈ ns, treeAt ns n.index = some n.component
  | [], _, _ => List.forall_mem_nil _
  | n :: ns, before, hnodes => by
    have hlater := @mem_of_index_lt a (sorted_of_numbered hnumbered) before ns n
    have hn : n ∈ a.nodes := by
      rw [hnodes]
      exact List.mem_append_right _ (.head _)
    have ih : ∀ m ∈ ns, treeAt ns m.index = some m.component := by
      apply treeAt_index hnumbered hlinked ns (before ++ [n])
      rw [hnodes, List.append_assoc, List.singleton_append]
    have hchildren : n.children.filterMap (treeAt ns) = n.component.children := by
      apply map_treeAt (hlinked n hn).children
      intro i _ m hm hparent
      have hmem := List.mem_of_getElem? hm
      rw [← index_of_getElem? hnumbered hm]
      exact ih m (hlater hnodes hmem ((hlinked m hmem).inner _ hparent).1)
    have hself : treeAt (n :: ns) n.index = some n.component := by
      rw [treeAt, if_pos (beq_self_eq_true _), hchildren]
      cases hc : n.component with
      | node data children => rw [ArenaNode.data, hc]; rfl
    rw [List.forall_mem_cons]
    refine ⟨hself, fun m hm => ?_⟩
    have hsorted := sorted_of_numbered hnumbered
    rw [hnodes, List.pairwise_append, List.pairwise_cons] at hsorted
    have hlt := hsorted.2.1.1 m hm
    rw [treeAt, if_neg (by simpa using hlt.ne), ih m hm]

/-- Links are all entries with one parent, when they are in order and lead to those. -/
theorem links_eq_filter {size : Nat} (hnumbered : a.nodes.map (·.index) = List.range size) {links : List Nat}
    {cs : List Component} {parent : Option Nat} (hordered : links.Pairwise (· < ·))
    (hlinks : links.map (fun i => (a.nodes[i]?).map fun m => (m.component, m.parent)) =
      cs.map fun c => some (c, parent))
    (hall : ∀ m ∈ a.nodes, m.parent = parent → m.index ∈ links) :
    links = (a.nodes.filter (·.parent == parent)).map (·.index) := by
  have hsorted : ((a.nodes.filter (·.parent == parent)).map (·.index)).Pairwise (· < ·) := by
    rw [List.pairwise_map]
    exact (sorted_of_numbered hnumbered).filter _
  apply List.Pairwise.eq_of_mem_iff hordered hsorted
  intro i
  rw [List.mem_map]
  constructor
  · intro hi
    have hmem := List.mem_map_of_mem (f := fun i => (a.nodes[i]?).map fun m => (m.component, m.parent)) hi
    rw [hlinks, List.mem_map] at hmem
    obtain ⟨c, -, hc⟩ := hmem
    obtain ⟨m, hm, hpair⟩ := Option.map_eq_some_iff.1 hc.symm
    cases hpair
    refine ⟨m, List.mem_filter.2 ⟨List.mem_of_getElem? hm, beq_self_eq_true _⟩, index_of_getElem? hnumbered hm⟩
  · rintro ⟨m, hm, rfl⟩
    rw [List.mem_filter, beq_iff_eq] at hm
    exact hall m hm.1 hm.2

theorem get?_foldl_setDefault (id : String) (ns : List ArenaNode) (table : List (String × Nat)) :
    Fields.get? id (ns.foldl (fun table n => Fields.setDefault n.data.id n.index table) table) =
      (Fields.get? id table).or ((ns.find? (·.data.id == id)).map (·.index)) := by
  induction ns generalizing table with
  | nil => rw [List.foldl_nil, List.find?_nil, Option.map_none, Option.or_none]
  | cons n ns ih =>
    rw [List.foldl_cons, ih, Fields.get?_setDefault, Option.or_assoc, List.find?_cons]
    cases n.data.id == id with
    | true => rfl
    | false => rfl

/-- The table of a forest. Its entries are the components in document order, with their numbers; the parent of an entry
comes before it, one level higher, and its links lead to the components inside its own, so that the forest is found
again along them. Its depth is that of the forest, and components are found in it by identifier and action. -/
theorem ofComponents_represents (cs : List Component) : (ofComponents cs).Represents cs := by
  have hpreorder : (ofComponents cs).nodes.map (·.component) = preorderAll cs := by
    rw [nodes_ofComponents, map_component_entriesAll]
  have hnumbered : (ofComponents cs).nodes.map (·.index) = List.range (sizeAll cs) := by
    rw [nodes_ofComponents, map_index_entriesAll, List.range_eq_range']
  have hholds : (ofComponents cs).Holds 0 (entriesAll 0 none 0 cs) := by
    refine ⟨[], ?_⟩
    rw [List.append_nil, List.drop_zero, nodes_ofComponents]
  have hroots := map_places cs hholds
  rw [← roots_ofComponents] at hroots
  have hlinked : ∀ n ∈ (ofComponents cs).nodes, (ofComponents cs).Linked n := by
    have h := linked_entriesAll cs hholds fun i hi => ⟨fun _ => ⟨rfl, roots_ofComponents cs ▸ hi⟩, nofun⟩
    rw [← nodes_ofComponents] at h
    exact h
  have hplaced : (ofComponents cs).roots = ((ofComponents cs).nodes.filter (·.parent == none)).map (·.index) := by
    apply links_eq_filter hnumbered _ hroots fun m hm hparent => ((hlinked m hm).root hparent).2
    rw [roots_ofComponents]
    exact pairwise_places 0 cs
  have hchildren : ∀ n ∈ (ofComponents cs).nodes,
      n.children = ((ofComponents cs).nodes.filter (·.parent == some n.index)).map (·.index) := by
    intro n hn
    apply links_eq_filter hnumbered (hlinked n hn).ordered (hlinked n hn).children
    intro m hm hparent
    obtain ⟨-, k, hk, -, hmem⟩ := (hlinked m hm).inner _ hparent
    rw [(hlinked n hn).entry] at hk
    cases hk
    exact hmem
  have hrebuilt : (ofComponents cs).forest = cs := by
    apply map_treeAt hroots
    intro i _ m hm _
    rw [← index_of_getElem? hnumbered hm]
    exact treeAt_index hnumbered hlinked _ [] rfl m (List.mem_of_getElem? hm)
  have hheight : (ofComponents cs).maxDepth = levelsAll cs - 1 := by
    rw [maxDepth, nodes_ofComponents, foldl_depth_entriesAll cs (Nat.zero_le _), Nat.zero_add, Nat.zero_max]
  have hfirst : ∀ id, (ofComponents cs).find? id = (ofComponents cs).nodes.find? (·.data.id == id) := by
    intro id
    rw [find?, byId_ofComponents, get?_foldl_setDefault]
    cases h : (ofComponents cs).nodes.find? (·.data.id == id) with
    | none => rfl
    | some n => exact (hlinked n (List.mem_of_find?_eq_some h)).entry
  refine ⟨hpreorder, hnumbered, hlinked, hroots, ⟨hplaced, hchildren⟩, hrebuilt, hheight, hfirst, fun name => ?_⟩
  rw [findActions, ← hpreorder, List.filter_map]
  rfl

end OfComponents

end Arena

end ConsentBanner
