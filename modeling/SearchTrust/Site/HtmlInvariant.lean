/-
What the tree of a page keeps while the tokens of its text are handled in order: every node
stands at its path below its parent, closed elements span their closed elements, and the
stack holds one element of each level.
-/
import SearchTrust.Report.Outcomes
import SearchTrust.Site.Html

namespace SearchTrust.Site

open SearchTrust.Order
open SearchTrust.Report.Outcomes

section Tokens

def Token.start : Token → ℕ
  | .startTag _ _ start _ | .startEndTag _ _ start _ | .endTag _ start | .data _ start
  | .comment start => start

/-- Where a token ends: an end tag at the first closing bracket, and of the others than
tags nothing is known. -/
def Token.stop (text : List Char) : Token → ℕ
  | .startTag _ _ start length | .startEndTag _ _ start length => start + length
  | .endTag _ start => HtmlTree.bracketEnd text start
  | .data _ start | .comment start => start

def Token.isTag : Token → Bool
  | .startTag .. | .startEndTag .. | .endTag .. => true
  | .data .. | .comment .. => false

/-- The tokens of a text from a position on, in the order of the text. -/
def InOrder (text : List Char) (pos : ℕ) : List Token → Prop
  | [] => pos ≤ text.length
  | token :: rest => pos ≤ token.start ∧ (token.isTag = true → token.start < token.stop text) ∧
      InOrder text (token.stop text) rest

end Tokens

section Invariant

variable (casefold : String → String)

/-- The element hides itself and what is inside it. -/
def Node.hides (node : Node) : Bool := suppresses casefold node.attrs || node.tag ∈ ignored

/-- The stack, in which every element is the last one of the element below it. -/
def Nested (nodes : List Node) : List ℕ → Prop
  | [] => True
  | i :: rest => (∃ parent, nodes[rest.headD 0]? = some parent ∧
      parent.elements.getLast? = some i) ∧ Nested nodes rest

/-- A node as its parent knows it. -/
structure ChildOf (nodes : List Node) (i : ℕ) (node : Node) (p k : ℕ) (parent : Node) : Prop where
  parentId : node.parent = some p
  lookup : nodes[p]? = some parent
  before : p < i
  element : parent.elements[k]? = some i
  path : node.path = parent.path ++ [k]
  hidden : node.hidden = (parent.hidden || node.hides casefold)
  start : parent.contentStart ≤ node.start

/-- What the tree is while the tokens up to a position are handled. -/
structure TreeInv (nodes : List Node) (opened : List ℕ) (pos : ℕ) : Prop where
  root : ∃ root, nodes[0]? = some root ∧ root.path = [] ∧ root.hidden = false ∧
    root.contentStart = 0
  child : ∀ {i : ℕ} {node : Node}, nodes[i]? = some node → i ≠ 0 → ∃ p k parent,
    ChildOf casefold nodes i node p k parent
  spans : ∀ {i : ℕ} {node : Node}, nodes[i]? = some node → i ≠ 0 →
    node.start < node.contentStart ∧ node.contentStart ≤ pos
  closed : ∀ {i : ℕ} {node : Node}, nodes[i]? = some node → i ≠ 0 → node.closed = true →
    node.contentStart ≤ node.contentEnd ∧ node.contentEnd ≤ node.stop ∧ node.stop ≤ pos
  element : ∀ {i e : ℕ} {node : Node}, nodes[i]? = some node → e ∈ node.elements →
    i < e ∧ ∃ child, nodes[e]? = some child ∧ child.parent = some i
  increasing : ∀ {i : ℕ} {node : Node}, nodes[i]? = some node → node.elements.Pairwise (· < ·)
  ordered : ∀ {i : ℕ} {node : Node}, nodes[i]? = some node → node.elements.Pairwise fun a b =>
    ∀ first second, nodes[a]? = some first → nodes[b]? = some second → first.closed = true →
      first.stop ≤ second.start
  inside : ∀ {i e : ℕ} {node child : Node}, nodes[i]? = some node → i ≠ 0 → node.closed = true →
    e ∈ node.elements → nodes[e]? = some child → child.closed = true →
      child.stop ≤ node.contentEnd
  nested : Nested nodes opened
  decreasing : (opened ++ [0]).Pairwise (· > ·)
  opened : ∀ i ∈ opened, ∃ node, nodes[i]? = some node ∧ node.closed = false

variable {casefold} {nodes : List Node} {opened : List ℕ} {pos : ℕ}

theorem TreeInv.mono (h : TreeInv casefold nodes opened pos) {later : ℕ} (hle : pos ≤ later) :
    TreeInv casefold nodes opened later where
  root := h.root
  child := h.child
  spans hnode hne := ⟨(h.spans hnode hne).1, (h.spans hnode hne).2.trans hle⟩
  closed hnode hne hclosed := ⟨(h.closed hnode hne hclosed).1, (h.closed hnode hne hclosed).2.1,
    (h.closed hnode hne hclosed).2.2.trans hle⟩
  element := h.element
  increasing := h.increasing
  ordered := h.ordered
  inside := h.inside
  nested := h.nested
  decreasing := h.decreasing
  opened := h.opened

theorem TreeInv.pos_of_mem (h : TreeInv casefold nodes opened pos) {i : ℕ} (hi : i ∈ opened) :
    i ≠ 0 := by
  have := (List.pairwise_append.1 h.decreasing).2.2 i hi 0 (List.mem_singleton_self _)
  omega

/-- The elements above a place of the stack are taken off. -/
theorem Nested.drop (h : Nested nodes opened) (n : ℕ) : Nested nodes (opened.drop n) := by
  induction n generalizing opened with
  | zero => exact h
  | succ n ih =>
      cases opened with
      | nil => trivial
      | cons i rest => exact ih h.2

/-- An element of the stack is the last one of its parent. -/
theorem Nested.getLast (h : Nested nodes opened) {i : ℕ} (hi : i ∈ opened) :
    ∃ p ∈ opened ++ [0], ∃ parent, nodes[p]? = some parent ∧
      parent.elements.getLast? = some i := by
  induction opened with
  | nil => cases hi
  | cons j rest ih =>
      rcases List.mem_cons.1 hi with rfl | hi
      · obtain ⟨parent, hparent, hlast⟩ := h.1
        refine ⟨rest.headD 0, ?_, parent, hparent, hlast⟩
        cases rest with
        | nil => simp
        | cons p rest => simp
      · obtain ⟨p, hp, hrest⟩ := ih h.2 hi
        exact ⟨p, List.mem_cons_of_mem _ hp, hrest⟩

/-- The parent of an element of the stack is on the stack, too, or it is the root, and
the element is its last one. -/
theorem TreeInv.last_of_opened (h : TreeInv casefold nodes opened pos) {i p : ℕ} {parent : Node}
    (hi : i ∈ opened) (hparent : nodes[p]? = some parent) (hmem : i ∈ parent.elements) :
    (p ∈ opened ∨ p = 0) ∧ ∀ e ∈ parent.elements, e ≤ i := by
  obtain ⟨q, hq, other, hother, hlast⟩ := h.nested.getLast hi
  have hmem' : i ∈ other.elements := List.mem_of_getLast? hlast
  obtain ⟨-, child, hchild, hof⟩ := h.element hparent hmem
  obtain ⟨-, child', hchild', hof'⟩ := h.element hother hmem'
  obtain rfl : child = child' := Option.some.inj (hchild.symm.trans hchild')
  obtain rfl : p = q := Option.some.inj (hof.symm.trans hof')
  obtain rfl : parent = other := Option.some.inj (hparent.symm.trans hother)
  refine ⟨by simpa using hq, fun e he => ?_⟩
  obtain ⟨before, hsplit⟩ : ∃ before, parent.elements = before ++ [i] :=
    ⟨_, (List.dropLast_append_getLast? i hlast).symm⟩
  have hincreasing := h.increasing hparent
  rw [hsplit] at he hincreasing
  rcases List.mem_append.1 he with he | he
  · exact ((List.pairwise_append.1 hincreasing).2.2 e he i (List.mem_singleton_self _)).le
  · exact (List.mem_singleton.1 he).le

/-- Two nodes that differ only in their children. -/
structure SameNode (node other : Node) : Prop where
  tag : other.tag = node.tag
  attrs : other.attrs = node.attrs
  start : other.start = node.start
  contentStart : other.contentStart = node.contentStart
  path : other.path = node.path
  hidden : other.hidden = node.hidden
  parent : other.parent = node.parent
  stop : other.stop = node.stop
  contentEnd : other.contentEnd = node.contentEnd
  closed : other.closed = node.closed
  bad : other.bad = node.bad

theorem SameNode.refl (node : Node) : SameNode node node :=
  ⟨rfl, rfl, rfl, rfl, rfl, rfl, rfl, rfl, rfl, rfl, rfl⟩

theorem Node.same_adopt (node : Node) (id : ℕ) : SameNode node (node.adopt id) :=
  ⟨rfl, rfl, rfl, rfl, rfl, rfl, rfl, rfl, rfl, rfl, rfl⟩

theorem SameNode.hides {node other : Node} (h : SameNode node other) :
    other.hides casefold = node.hides casefold := by
  rw [Node.hides, Node.hides, h.tag, h.attrs]

/-- The nodes with a new one, an element of the node `p`. -/
def pushNode (nodes : List Node) (p : ℕ) (node : Node) : List Node :=
  updateAt [p] (·.adopt nodes.length) nodes ++ [node]

theorem getElem?_pushNode {p : ℕ} {node : Node} {i : ℕ} {found : Node}
    (h : (pushNode nodes p node)[i]? = some found) :
    (i = nodes.length ∧ found = node) ∨ ∃ old, nodes[i]? = some old ∧ SameNode old found ∧
      found.elements = if i = p then old.elements ++ [nodes.length] else old.elements := by
  rw [pushNode, List.getElem?_append, length_updateAt] at h
  split at h
  next hlt =>
    right
    rw [getElem?_updateAt, Option.map_eq_some_iff] at h
    obtain ⟨old, hold, rfl⟩ := h
    refine ⟨old, hold, ?_, ?_⟩
    · split
      · exact old.same_adopt _
      · exact .refl old
    · simp only [List.mem_singleton]
      split <;> rfl
  next hle =>
    left
    obtain ⟨hlt, hget⟩ := List.getElem?_eq_some_iff.1 h
    rw [List.length_singleton] at hlt
    refine ⟨by omega, ?_⟩
    have hzero : i - nodes.length = 0 := by omega
    rw [hzero] at h
    exact (Option.some.inj h).symm

theorem getElem?_pushNode_old (p : ℕ) (node : Node) {i : ℕ} {old : Node}
    (h : nodes[i]? = some old) : ∃ found, (pushNode nodes p node)[i]? = some found ∧
      SameNode old found ∧
      found.elements = if i = p then old.elements ++ [nodes.length] else old.elements := by
  have hlt : i < nodes.length := (List.getElem?_eq_some_iff.1 h).1
  have hfound : (pushNode nodes p node)[i]? =
      some (if i ∈ [p] then old.adopt nodes.length else old) := by
    rw [pushNode, List.getElem?_append_left (by rw [length_updateAt]; exact hlt),
      getElem?_updateAt, h]
    rfl
  refine ⟨_, hfound, ?_, ?_⟩
  · split
    · exact old.same_adopt _
    · exact .refl old
  · simp only [List.mem_singleton]
    split <;> rfl

theorem getElem?_pushNode_new {p : ℕ} {node : Node} :
    (pushNode nodes p node)[nodes.length]? = some node := by
  rw [pushNode, List.getElem?_append_right (by rw [length_updateAt]), length_updateAt]
  simp

theorem TreeInv.lt_length (h : TreeInv casefold nodes opened pos) {i e : ℕ} {node : Node}
    (hnode : nodes[i]? = some node) (he : e ∈ node.elements) : e < nodes.length := by
  obtain ⟨-, child, hchild, -⟩ := h.element hnode he
  exact (List.getElem?_eq_some_iff.1 hchild).1

theorem Nested.push {p : ℕ} {node : Node} (h : Nested nodes opened)
    (hp : ∀ rest i, (i :: rest) <:+ opened → rest.headD 0 ≠ p) :
    Nested (pushNode nodes p node) opened := by
  induction opened with
  | nil => trivial
  | cons i rest ih =>
      obtain ⟨⟨parent, hparent, hlast⟩, hrest⟩ := h
      refine ⟨?_, ih hrest fun rest' i' hsuffix => hp rest' i' (hsuffix.trans (List.suffix_cons _ _))⟩
      obtain ⟨found, hfound, -, helements⟩ := getElem?_pushNode_old p node hparent
      refine ⟨found, hfound, ?_⟩
      rw [helements, if_neg (hp rest i (List.suffix_refl _))]
      exact hlast

/-- A new element of the innermost one enters the stack. -/
theorem TreeInv.push (h : TreeInv casefold nodes opened pos) (node : Node) {parent : Node}
    (hparent : nodes[opened.headD 0]? = some parent)
    (hparentId : node.parent = some (opened.headD 0))
    (hpath : node.path = parent.path ++ [parent.elements.length])
    (hhidden : node.hidden = (parent.hidden || node.hides casefold))
    (helements : node.elements = []) (hclosed : node.closed = false)
    (hstart : pos ≤ node.start) (hcontent : node.start < node.contentStart) :
    TreeInv casefold (pushNode nodes (opened.headD 0) node) (nodes.length :: opened)
      node.contentStart := by
  have hlength : opened.headD 0 < nodes.length := (List.getElem?_eq_some_iff.1 hparent).1
  have hmem : ∀ i ∈ opened ++ [0], i < nodes.length := by
    intro i hi
    rcases List.mem_append.1 hi with hi | hi
    · obtain ⟨found, hfound, -⟩ := h.opened i hi
      exact (List.getElem?_eq_some_iff.1 hfound).1
    · rw [List.mem_singleton.1 hi]
      omega
  have hparentStart : parent.contentStart ≤ pos := by
    by_cases hroot : opened.headD 0 = 0
    · obtain ⟨root, hrootNode, -, -, hzero⟩ := h.root
      rw [hroot] at hparent
      obtain rfl : parent = root := Option.some.inj (hparent.symm.trans hrootNode)
      omega
    · exact (h.spans hparent hroot).2
  constructor
  case root =>
    obtain ⟨root, hroot, hrest⟩ := h.root
    obtain ⟨found, hfound, hsame, -⟩ :=
      getElem?_pushNode_old (opened.headD 0) node hroot
    exact ⟨found, hfound, by rw [hsame.path, hsame.hidden, hsame.contentStart]; exact hrest⟩
  case child =>
    intro i found hfound hne
    rcases getElem?_pushNode hfound with ⟨rfl, rfl⟩ | ⟨old, hold, hsame, -⟩
    · obtain ⟨parent', hparent', hsame', helements'⟩ :=
        getElem?_pushNode_old (opened.headD 0) found hparent
      rw [if_pos rfl] at helements'
      refine ⟨opened.headD 0, parent.elements.length, parent', hparentId, hparent', hlength,
        ?_, ?_, ?_, ?_⟩
      · rw [helements']
        simp
      · rw [hpath, hsame'.path]
      · rw [hhidden, hsame'.hidden]
      · rw [hsame'.contentStart]
        omega
    · obtain ⟨p, k, parent', hchild⟩ := h.child hold hne
      obtain ⟨found', hfound', hsame', helements'⟩ :=
        getElem?_pushNode_old (opened.headD 0) node hchild.lookup
      refine ⟨p, k, found', ?_, hfound', hchild.before, ?_, ?_, ?_, ?_⟩
      · rw [hsame.parent, hchild.parentId]
      · rw [helements']
        split
        · rw [List.getElem?_append_left (List.getElem?_eq_some_iff.1 hchild.element).1]
          exact hchild.element
        · exact hchild.element
      · rw [hsame.path, hsame'.path, hchild.path]
      · rw [hsame.hidden, hsame'.hidden, hsame.hides, hchild.hidden]
      · rw [hsame.start, hsame'.contentStart]
        exact hchild.start
  case spans =>
    intro i found hfound hne
    rcases getElem?_pushNode hfound with ⟨rfl, rfl⟩ | ⟨old, hold, hsame, -⟩
    · exact ⟨hcontent, le_rfl⟩
    · rw [hsame.start, hsame.contentStart]
      exact ⟨(h.spans hold hne).1, by have := (h.spans hold hne).2; omega⟩
  case closed =>
    intro i found hfound hne hdone
    rcases getElem?_pushNode hfound with ⟨rfl, rfl⟩ | ⟨old, hold, hsame, -⟩
    · rw [hclosed] at hdone
      cases hdone
    · rw [hsame.contentStart, hsame.contentEnd, hsame.stop]
      have := h.closed hold hne (hsame.closed ▸ hdone)
      omega
  case element =>
    intro i e found hfound he
    rcases getElem?_pushNode hfound with ⟨rfl, rfl⟩ | ⟨old, hold, hsame, helements'⟩
    · rw [helements] at he
      cases he
    · have hcases : e ∈ old.elements ∨ (i = opened.headD 0 ∧ e = nodes.length) := by
        rw [helements'] at he
        split at he
        next hi =>
          rcases List.mem_append.1 he with he | he
          · exact .inl he
          · exact .inr ⟨hi, List.mem_singleton.1 he⟩
        next => exact .inl he
      rcases hcases with he | ⟨rfl, rfl⟩
      · obtain ⟨hlt, child, hchild, hof⟩ := h.element hold he
        obtain ⟨found', hfound', hsame', -⟩ :=
          getElem?_pushNode_old (opened.headD 0) node hchild
        exact ⟨hlt, found', hfound', by rw [hsame'.parent, hof]⟩
      · exact ⟨hlength, node, getElem?_pushNode_new, hparentId⟩
  case increasing =>
    intro i found hfound
    rcases getElem?_pushNode hfound with ⟨rfl, rfl⟩ | ⟨old, hold, hsame, helements'⟩
    · rw [helements]
      exact .nil
    · rw [helements']
      split
      · refine List.pairwise_append.2 ⟨h.increasing hold, List.pairwise_singleton _ _, ?_⟩
        intro a ha b hb
        rw [List.mem_singleton.1 hb]
        exact h.lt_length hold ha
      · exact h.increasing hold
  case ordered =>
    intro i found hfound
    rcases getElem?_pushNode hfound with ⟨rfl, rfl⟩ | ⟨old, hold, hsame, helements'⟩
    · rw [helements]
      exact .nil
    · have hold' : old.elements.Pairwise fun a b => ∀ first second,
          (pushNode nodes (opened.headD 0) node)[a]? = some first →
          (pushNode nodes (opened.headD 0) node)[b]? = some second → first.closed = true →
            first.stop ≤ second.start := by
        refine (h.ordered hold).imp_of_mem fun {a b} ha hb hab first second hfirst hsecond hdone => ?_
        rcases getElem?_pushNode hfirst with ⟨rfl, -⟩ | ⟨oldFirst, hfirst', hsame', -⟩
        · exact absurd (h.lt_length hold ha) (lt_irrefl _)
        rcases getElem?_pushNode hsecond with ⟨rfl, -⟩ | ⟨oldSecond, hsecond', hsame'', -⟩
        · exact absurd (h.lt_length hold hb) (lt_irrefl _)
        rw [hsame'.stop, hsame''.start]
        exact hab oldFirst oldSecond hfirst' hsecond' (hsame'.closed ▸ hdone)
      rw [helements']
      split
      · refine List.pairwise_append.2 ⟨hold', List.pairwise_singleton _ _, ?_⟩
        intro a ha b hb first second hfirst hsecond hdone
        rw [List.mem_singleton.1 hb, getElem?_pushNode_new, Option.some.injEq] at hsecond
        rcases getElem?_pushNode hfirst with ⟨rfl, -⟩ | ⟨oldFirst, hfirst', hsame', -⟩
        · exact absurd (h.lt_length hold ha) (lt_irrefl _)
        rw [hsame'.stop, ← hsecond]
        have hne : a ≠ 0 := by
          have := (h.element hold ha).1
          omega
        have := h.closed hfirst' hne (hsame'.closed ▸ hdone)
        omega
      · exact hold'
  case inside =>
    intro i e found child hfound hne hdone he hchild hdone'
    rcases getElem?_pushNode hfound with ⟨rfl, rfl⟩ | ⟨old, hold, hsame, helements'⟩
    · rw [hclosed] at hdone
      cases hdone
    rcases getElem?_pushNode hchild with ⟨rfl, rfl⟩ | ⟨oldChild, hchild', hsame', -⟩
    · rw [hclosed] at hdone'
      cases hdone'
    have he' : e ∈ old.elements := by
      rw [helements'] at he
      split at he
      · rcases List.mem_append.1 he with he | he
        · exact he
        · have hlt := (List.getElem?_eq_some_iff.1 hchild').1
          rw [List.mem_singleton.1 he] at hlt
          exact absurd hlt (lt_irrefl _)
      · exact he
    rw [hsame'.stop, hsame.contentEnd]
    exact h.inside hold hne (hsame.closed ▸ hdone) he' hchild' (hsame'.closed ▸ hdone')
  case nested =>
    refine ⟨?_, h.nested.push ?_⟩
    · obtain ⟨found, hfound, -, helements'⟩ :=
        getElem?_pushNode_old (opened.headD 0) node hparent
      refine ⟨found, hfound, ?_⟩
      rw [helements', if_pos rfl, List.getLast?_append]
      rfl
    · intro rest i hsuffix hhead
      obtain ⟨before, rfl⟩ := hsuffix
      have hdecreasing := h.decreasing
      cases before with
      | nil =>
          cases rest with
          | nil => exact h.pos_of_mem List.mem_cons_self hhead.symm
          | cons j rest =>
              simp only [List.headD_cons, List.nil_append] at hhead hdecreasing
              have := (List.pairwise_cons.1 hdecreasing).1 j (by simp)
              omega
      | cons first before =>
          have hlt : ∀ j ∈ rest ++ [0], j < first := by
            intro j hj
            refine (List.pairwise_cons.1 hdecreasing).1 j ?_
            rcases List.mem_append.1 hj with hj | hj <;> simp [hj]
          have := hlt (rest.headD 0) (by cases rest <;> simp)
          simp only [List.cons_append, List.headD_cons] at hhead
          omega
  case decreasing =>
    rw [List.cons_append]
    exact List.pairwise_cons.2 ⟨fun i hi => hmem i hi, h.decreasing⟩
  case opened =>
    intro i hi
    rcases List.mem_cons.1 hi with rfl | hi
    · exact ⟨node, getElem?_pushNode_new, hclosed⟩
    · obtain ⟨found, hfound, hopen⟩ := h.opened i hi
      obtain ⟨found', hfound', hsame, -⟩ :=
        getElem?_pushNode_old (opened.headD 0) node hfound
      exact ⟨found', hfound', hsame.closed.trans hopen⟩

/-- The nodes `found` after a step that may close one element, and that leaves others
without an end tag. -/
structure Updated (nodes found : List Node) (closing : Option ℕ) (left : List ℕ)
    (contentEnd stop : ℕ) : Prop where
  lookup : ∀ {i : ℕ} {old : Node}, nodes[i]? = some old → ∃ new, found[i]? = some new
  old : ∀ {i : ℕ} {new : Node}, found[i]? = some new → ∃ old, nodes[i]? = some old ∧
    new.tag = old.tag ∧ new.attrs = old.attrs ∧ new.start = old.start ∧
    new.contentStart = old.contentStart ∧ new.path = old.path ∧ new.hidden = old.hidden ∧
    new.parent = old.parent ∧ new.elements = old.elements ∧
    (closing = some i → new.closed = true ∧ new.contentEnd = contentEnd ∧ new.stop = stop) ∧
    (closing ≠ some i → i ∈ left → new.closed = old.closed) ∧
    (closing ≠ some i → i ∉ left → new.closed = old.closed ∧ new.contentEnd = old.contentEnd ∧
      new.stop = old.stop)

/-- What a step tells of a node that it left closed. -/
theorem Updated.closed_cases {found : List Node} {closing : Option ℕ} {left : List ℕ}
    {contentEnd stop : ℕ} (h : TreeInv casefold nodes opened pos)
    (hupdated : Updated nodes found closing left contentEnd stop) (hleft : ∀ i ∈ left, i ∈ opened)
    {i : ℕ} {old new : Node} (hold : nodes[i]? = some old) (hnew : found[i]? = some new)
    (hdone : new.closed = true) :
    (closing = some i ∧ new.contentEnd = contentEnd ∧ new.stop = stop) ∨
      (old.closed = true ∧ new.contentEnd = old.contentEnd ∧ new.stop = old.stop) := by
  obtain ⟨old', hold', -, -, -, -, -, -, -, -, hclosing, hbroken, hsame⟩ := hupdated.old hnew
  obtain rfl : old = old' := Option.some.inj (hold.symm.trans hold')
  by_cases hi : closing = some i
  · exact .inl ⟨hi, (hclosing hi).2⟩
  right
  by_cases hmem : i ∈ left
  · obtain ⟨open', hopen', hnot⟩ := h.opened i (hleft i hmem)
    obtain rfl : old = open' := Option.some.inj (hold.symm.trans hopen')
    rw [hbroken hi hmem, hnot] at hdone
    cases hdone
  · obtain ⟨hclosed, hrest⟩ := hsame hi hmem
    exact ⟨hclosed ▸ hdone, hrest⟩

theorem Nested.updated {found : List Node} {closing : Option ℕ} {left : List ℕ}
    {contentEnd stop : ℕ} (hupdated : Updated nodes found closing left contentEnd stop)
    (h : Nested nodes opened) : Nested found opened := by
  induction opened with
  | nil => trivial
  | cons i rest ih =>
      obtain ⟨⟨parent, hparent, hlast⟩, hrest⟩ := h
      obtain ⟨new, hnew⟩ := hupdated.lookup hparent
      obtain ⟨old, hold, -, -, -, -, -, -, -, helements, -⟩ := hupdated.old hnew
      obtain rfl : parent = old := Option.some.inj (hparent.symm.trans hold)
      exact ⟨⟨new, hnew, by rw [helements, hlast]⟩, ih hrest⟩

/-- An element of the stack may be closed, with those above it left, at a later place. -/
theorem TreeInv.updated {found : List Node} {closing : Option ℕ} {left : List ℕ}
    {contentEnd stop : ℕ} (h : TreeInv casefold nodes opened pos)
    (hupdated : Updated nodes found closing left contentEnd stop)
    (hleft : ∀ i ∈ left, i ∈ opened) (hclosing : ∀ i, closing = some i → i ∈ opened) (n : ℕ)
    (hrest : ∀ i ∈ opened.drop n, i ∉ left ∧ closing ≠ some i) (hpos : pos ≤ contentEnd)
    (hstop : contentEnd ≤ stop) : TreeInv casefold found (opened.drop n) stop := by
  constructor
  case root =>
    obtain ⟨root, hroot, hpath, hhidden, hcontent⟩ := h.root
    obtain ⟨new, hnew⟩ := hupdated.lookup hroot
    obtain ⟨old, hold, -, -, -, hcontent', hpath', hhidden', -⟩ := hupdated.old hnew
    obtain rfl : root = old := Option.some.inj (hroot.symm.trans hold)
    exact ⟨new, hnew, hpath'.trans hpath, hhidden'.trans hhidden, hcontent'.trans hcontent⟩
  case child =>
    intro i new hnew hne
    obtain ⟨old, hold, htag, hattrs, hstart, -, hpath, hhidden, hparent, -⟩ := hupdated.old hnew
    obtain ⟨p, k, parent, hchild⟩ := h.child hold hne
    obtain ⟨parent', hparent'⟩ := hupdated.lookup hchild.lookup
    obtain ⟨old', hold', -, -, -, hcontent, hpath', hhidden', -, helements, -⟩ :=
      hupdated.old hparent'
    obtain rfl : parent = old' := Option.some.inj (hchild.lookup.symm.trans hold')
    refine ⟨p, k, parent', by rw [hparent, hchild.parentId], hparent', hchild.before,
      by rw [helements, hchild.element], by rw [hpath, hpath', hchild.path], ?_, ?_⟩
    · rw [hhidden, hhidden', hchild.hidden, Node.hides, Node.hides, htag, hattrs]
    · rw [hcontent, hstart]
      exact hchild.start
  case spans =>
    intro i new hnew hne
    obtain ⟨old, hold, -, -, hstart, hcontent, -⟩ := hupdated.old hnew
    have := h.spans hold hne
    rw [hstart, hcontent]
    omega
  case closed =>
    intro i new hnew hne hdone
    obtain ⟨old, hold, -, -, -, hcontent, -⟩ := hupdated.old hnew
    rw [hcontent]
    have hspan := h.spans hold hne
    rcases hupdated.closed_cases h hleft hold hnew hdone with ⟨-, hend, hlast⟩ | ⟨hdone', hend, hlast⟩
    · omega
    · have := h.closed hold hne hdone'
      omega
  case element =>
    intro i e new hnew he
    obtain ⟨old, hold, -, -, -, -, -, -, -, helements, -⟩ := hupdated.old hnew
    obtain ⟨hlt, child, hchild, hof⟩ := h.element hold (helements ▸ he)
    obtain ⟨child', hchild'⟩ := hupdated.lookup hchild
    obtain ⟨old', hold', -, -, -, -, -, -, hparent, -⟩ := hupdated.old hchild'
    obtain rfl : child = old' := Option.some.inj (hchild.symm.trans hold')
    exact ⟨hlt, child', hchild', hparent.trans hof⟩
  case increasing =>
    intro i new hnew
    obtain ⟨old, hold, -, -, -, -, -, -, -, helements, -⟩ := hupdated.old hnew
    rw [helements]
    exact h.increasing hold
  case ordered =>
    intro i new hnew
    obtain ⟨old, hold, -, -, -, -, -, -, -, helements, -⟩ := hupdated.old hnew
    rw [helements]
    refine ((h.ordered hold).and (h.increasing hold)).imp_of_mem ?_
    intro a b ha hb ⟨hab, hlt⟩ first second hfirst hsecond hdone
    obtain ⟨oldFirst, hfirst', -⟩ := hupdated.old hfirst
    obtain ⟨oldSecond, hsecond', -, -, hstart, -⟩ := hupdated.old hsecond
    rw [hstart]
    rcases hupdated.closed_cases h hleft hfirst' hfirst hdone with ⟨hclose, -⟩ | ⟨hdone', -, hlast⟩
    · have := (h.last_of_opened (hclosing a hclose) hold ha).2 b hb
      omega
    · rw [hlast]
      exact hab oldFirst oldSecond hfirst' hsecond' hdone'
  case inside =>
    intro i e new child hnew hne hdone he hchild hdone'
    obtain ⟨old, hold, -, -, -, -, -, -, -, helements, -⟩ := hupdated.old hnew
    obtain ⟨oldChild, hchild', -⟩ := hupdated.old hchild
    have he' : e ∈ old.elements := helements ▸ he
    have hlt := (h.element hold he').1
    rcases hupdated.closed_cases h hleft hold hnew hdone with ⟨hclose, hend, -⟩ | ⟨hopen, hend, -⟩
    · rcases hupdated.closed_cases h hleft hchild' hchild hdone' with
        ⟨hclose', -⟩ | ⟨hdone'', -, hlast⟩
      · rw [hclose, Option.some.injEq] at hclose'
        omega
      · have := h.closed hchild' (by omega) hdone''
        omega
    · rcases hupdated.closed_cases h hleft hchild' hchild hdone' with
        ⟨hclose', -⟩ | ⟨hdone'', -, hlast⟩
      · rcases (h.last_of_opened (hclosing e hclose') hold he').1 with hmem | hzero
        · obtain ⟨node, hnode, hnot⟩ := h.opened i hmem
          obtain rfl : old = node := Option.some.inj (hold.symm.trans hnode)
          rw [hopen] at hnot
          cases hnot
        · exact absurd hzero hne
      · rw [hlast, hend]
        exact h.inside hold hne hopen he' hchild' hdone''
  case nested => exact (h.nested.drop n).updated hupdated
  case decreasing =>
    have hsublist : (opened.drop n ++ [0]).Sublist (opened ++ [0]) :=
      (List.drop_sublist n opened).append_right _
    exact h.decreasing.sublist hsublist
  case opened =>
    intro i hi
    obtain ⟨node, hnode, hopen⟩ := h.opened i (List.mem_of_mem_drop hi)
    obtain ⟨new, hnew⟩ := hupdated.lookup hnode
    obtain ⟨old, hold, -, -, -, -, -, -, -, -, -, -, hsame⟩ := hupdated.old hnew
    obtain rfl : node = old := Option.some.inj (hnode.symm.trans hold)
    exact ⟨new, hnew, (hsame (hrest i hi).2 (hrest i hi).1).1.trans hopen⟩

/-- Nodes are left without an end tag. -/
theorem updated_leave (nodes : List Node) (left : List ℕ) (offset contentEnd stop : ℕ) :
    Updated nodes (updateAt left (·.leave offset) nodes) none left contentEnd stop where
  lookup hold := by
    rw [getElem?_updateAt, hold]
    exact ⟨_, rfl⟩
  old := by
    intro i new hnew
    rw [getElem?_updateAt, Option.map_eq_some_iff] at hnew
    obtain ⟨old, hold, rfl⟩ := hnew
    refine ⟨old, hold, ?_⟩
    by_cases hi : i ∈ left
    · rw [if_pos hi]
      exact ⟨rfl, rfl, rfl, rfl, rfl, rfl, rfl, rfl, fun h => (by cases h),
        fun _ _ => rfl, fun _ hnot => absurd hi hnot⟩
    · rw [if_neg hi]
      exact ⟨rfl, rfl, rfl, rfl, rfl, rfl, rfl, rfl, fun h => (by cases h),
        fun _ _ => rfl, fun _ _ => ⟨rfl, rfl, rfl⟩⟩

/-- Only the data of some nodes changes. -/
theorem updated_data (nodes : List Node) (ids : List ℕ) (text : String) (contentEnd stop : ℕ) :
    Updated nodes (updateAt ids
      (fun node => { node with children := node.children ++ [.inl text] }) nodes) none []
      contentEnd stop where
  lookup hold := by
    rw [getElem?_updateAt, hold]
    exact ⟨_, rfl⟩
  old := by
    intro i new hnew
    rw [getElem?_updateAt, Option.map_eq_some_iff] at hnew
    obtain ⟨old, hold, rfl⟩ := hnew
    refine ⟨old, hold, ?_⟩
    by_cases hi : i ∈ ids
    · rw [if_pos hi]
      exact ⟨rfl, rfl, rfl, rfl, rfl, rfl, rfl, rfl, fun h => (by cases h), fun _ _ => rfl,
        fun _ _ => ⟨rfl, rfl, rfl⟩⟩
    · rw [if_neg hi]
      exact ⟨rfl, rfl, rfl, rfl, rfl, rfl, rfl, rfl, fun h => (by cases h), fun _ _ => rfl,
        fun _ _ => ⟨rfl, rfl, rfl⟩⟩

/-- One node is closed, and others are left without an end tag. -/
theorem updated_close {id : ℕ} {left : List ℕ} {f : Node → Node} {contentEnd stop : ℕ}
    (offset : ℕ) (hid : id ∉ left)
    (hf : ∀ node, nodes[id]? = some node → ∃ bad,
      f node = { node.shut contentEnd stop with bad := bad }) :
    Updated nodes (updateAt [id] f (updateAt left (·.leave offset) nodes)) (some id) left
      contentEnd stop where
  lookup hold := by
    rw [getElem?_updateAt, getElem?_updateAt, hold]
    exact ⟨_, rfl⟩
  old := by
    intro i new hnew
    rw [getElem?_updateAt, Option.map_eq_some_iff] at hnew
    obtain ⟨between, hbetween, rfl⟩ := hnew
    by_cases hi : i = id
    · subst hi
      rw [getElem?_updateAt_of_notMem hid] at hbetween
      obtain ⟨bad, hbad⟩ := hf between hbetween
      rw [if_pos (List.mem_singleton_self _), hbad]
      exact ⟨between, hbetween, rfl, rfl, rfl, rfl, rfl, rfl, rfl, rfl, fun _ => ⟨rfl, rfl, rfl⟩,
        fun h => absurd rfl h, fun h => absurd rfl h⟩
    · obtain ⟨old, hold, hrest⟩ := (updated_leave nodes left offset contentEnd stop).old hbetween
      obtain ⟨htag, hattrs, hstart, hcontent, hpath, hhidden, hparent, helements, -, hbroken,
        hsame⟩ := hrest
      rw [if_neg (by rwa [List.mem_singleton])]
      exact ⟨old, hold, htag, hattrs, hstart, hcontent, hpath, hhidden, hparent, helements,
        fun h => absurd (Option.some.inj h).symm hi, fun _ => hbroken (by simp),
        fun _ => hsame (by simp)⟩

/-- The element that was just pushed is closed where its content starts. -/
theorem TreeInv.shutPushed {node : Node} (h : TreeInv casefold nodes opened pos) {i : ℕ}
    {rest : List ℕ} (hopened : opened = i :: rest) (hnode : nodes[i]? = some node)
    (hpos : node.contentStart = pos) :
    TreeInv casefold (updateAt [i] (fun node => node.shut node.contentStart node.contentStart)
      nodes) rest pos := by
  subst hopened
  have hupdated : Updated nodes (updateAt [i]
      (fun node => node.shut node.contentStart node.contentStart)
        (updateAt [] (·.leave 0) nodes)) (some i) [] pos pos := by
    refine updated_close 0 List.not_mem_nil fun node' hnode' => ⟨node'.bad, ?_⟩
    obtain rfl : node = node' := Option.some.inj (hnode.symm.trans hnode')
    rw [hpos]
    rfl
  rw [updateAt_nil] at hupdated
  have hnodup : ∀ j ∈ rest, i ≠ j := by
    intro j hj
    have := (List.pairwise_cons.1 h.decreasing).1 j (List.mem_append_left _ hj)
    omega
  refine h.updated hupdated (fun _ hj => absurd hj List.not_mem_nil) ?_ 1 ?_ le_rfl le_rfl
  · intro j hj
    rw [← Option.some.inj hj]
    exact List.mem_cons_self
  · exact fun j hj => ⟨List.not_mem_nil, fun heq => hnodup j hj (Option.some.inj heq)⟩

end Invariant

section Handlers

variable {casefold : String → String} {tree next : HtmlTree} {pos : ℕ}

/-- The tree keeps its invariant up to a position. -/
def HtmlTree.Inv (casefold : String → String) (tree : HtmlTree) (pos : ℕ) : Prop :=
  TreeInv casefold tree.nodes tree.opened pos

theorem countNode_ok (h : tree.countNode = .ok next) :
    next = { tree with
      nodeCount := tree.nodeCount + 1
      budget := { tree.budget with htmlNodes := tree.budget.htmlNodes + 1 } } ∧
      next.nodeCount ≤ next.budget.limits.maxHtmlNodesPerPage ∧
      next.budget.htmlNodes ≤ next.budget.limits.maxHtmlNodesTotal := by
  unfold HtmlTree.countNode at h
  dsimp only at h
  split at h
  next hlimits =>
    cases h
    exact ⟨rfl, hlimits⟩
  next => cases h

/-- A start tag enters its node into the counted tree. -/
theorem handleStarttag_ok {tag : String} {attrs : Attrs} {start length : ℕ}
    (h : tree.handleStarttag casefold tag attrs start length = .ok next) :
    ∃ counted parent, tree.countNode = .ok counted ∧ tree.nodes[tree.top]? = some parent ∧
      next = counted.adopt casefold (startNode casefold tree.top parent tag attrs start length) := by
  obtain ⟨counted, hcounted, h⟩ := ok_of_bind h
  have hsame := (countNode_ok hcounted).1
  have htop : counted.nodes[counted.top]? = tree.nodes[tree.top]? := by
    rw [hsame]
    rfl
  have htop' : counted.top = tree.top := by
    rw [hsame]
    rfl
  split at h
  next => cases h
  next parent hparent =>
    dsimp only at h
    split at h
    next => cases h
    next =>
      split at h
      next => cases h
      next =>
        rw [Except.ok.injEq] at h
        exact ⟨counted, parent, hcounted, htop ▸ hparent, by rw [← h, htop']⟩

variable (casefold tree) in
/-- The nodes and the stack after a start tag. -/
theorem adopt_cases (node : Node) :
    (node.tag ∉ void ∧ (tree.adopt casefold node).nodes = pushNode tree.nodes tree.top node ∧
        (tree.adopt casefold node).opened = tree.nodes.length :: tree.opened) ∨
      (node.tag ∈ void ∧ (tree.adopt casefold node).nodes = updateAt [tree.nodes.length]
          (fun node => node.shut node.contentStart node.contentStart)
          (pushNode tree.nodes tree.top node) ∧
        (tree.adopt casefold node).opened = tree.opened) := by
  by_cases hvoid : node.tag ∈ void
  · refine .inr ⟨hvoid, ?_, ?_⟩
    · have happend := updateAt_append_length
        (fun node : Node => node.shut node.contentStart node.contentStart)
        (updateAt [tree.top] (·.adopt tree.nodes.length) tree.nodes) node
      rw [length_updateAt] at happend
      rw [pushNode, happend]
      simp only [HtmlTree.adopt, if_pos hvoid]
    · simp only [HtmlTree.adopt, if_pos hvoid]
  · refine .inl ⟨hvoid, ?_, ?_⟩
    · simp only [HtmlTree.adopt, if_neg hvoid, pushNode]
    · simp only [HtmlTree.adopt, if_neg hvoid]

/-- A start tag enters an element, which is closed at once where it is void. -/
theorem HtmlTree.Inv.adopt (h : tree.Inv casefold pos) {parent : Node} {tag : String}
    {attrs : Attrs} {start length : ℕ} (hparent : tree.nodes[tree.top]? = some parent)
    (hstart : pos ≤ start) (hlength : 0 < length) :
    (tree.adopt casefold (startNode casefold tree.top parent tag attrs start length)).Inv casefold
      (start + length) := by
  have hpush := TreeInv.push h
    (startNode casefold tree.top parent tag attrs start length) hparent rfl rfl
    (by simp [startNode, Node.hides, Bool.or_assoc]) rfl rfl hstart (by simp [startNode, hlength])
  unfold HtmlTree.Inv
  rcases adopt_cases casefold tree
    (startNode casefold tree.top parent tag attrs start length) with
    ⟨-, hnodes, hopened⟩ | ⟨-, hnodes, hopened⟩
  · rw [hnodes, hopened]
    exact hpush
  · rw [hnodes, hopened]
    exact hpush.shutPushed rfl getElem?_pushNode_new rfl

theorem HtmlTree.Inv.closeTop (h : tree.Inv casefold pos) {i : ℕ} {rest : List ℕ} {node : Node}
    (hopened : tree.opened = i :: rest) (hnode : tree.nodes[i]? = some node)
    (hpos : node.contentStart = pos) : tree.closeTop.Inv casefold pos := by
  have hshut := TreeInv.shutPushed h hopened hnode hpos
  unfold HtmlTree.Inv HtmlTree.closeTop HtmlTree.top
  rw [hopened]
  exact hshut

theorem openPosition_some {tag : String} {position : ℕ}
    (h : tree.openPosition tag = some position) :
    ∃ id node, tree.opened[position]? = some id ∧ tree.nodes[id]? = some node ∧
      node.tag = tag := by
  obtain ⟨hlt, htag, -⟩ := List.findIdx?_eq_some_iff_getElem.1 h
  obtain ⟨node, hnode, htag⟩ := Option.map_eq_some_iff.1 (of_decide_eq_true htag)
  exact ⟨_, node, List.getElem?_eq_getElem hlt, hnode, htag⟩

/-- An element of the stack is closed by its end tag, and those above it are left. -/
theorem HtmlTree.Inv.closeAt (h : tree.Inv casefold pos) {position id offset : ℕ}
    (hid : tree.opened[position]? = some id) (hpos : pos ≤ offset)
    (hbracket : offset < HtmlTree.bracketEnd tree.text offset) :
    (tree.closeAt position offset id).Inv casefold (HtmlTree.bracketEnd tree.text offset) := by
  obtain ⟨hlt, hget⟩ := List.getElem?_eq_some_iff.1 hid
  have hsplit : tree.opened = tree.opened.take position ++
      id :: tree.opened.drop (position + 1) := by
    rw [← hget, List.getElem_cons_drop, List.take_append_drop]
  have hnodup : tree.opened.Nodup :=
    (List.pairwise_append.1 h.decreasing).1.imp fun hgt => Nat.ne_of_gt hgt
  rw [hsplit] at hnodup
  obtain ⟨-, htail, hdisjoint⟩ := List.nodup_append.1 hnodup
  have hleft : id ∉ tree.opened.take position :=
    fun hmem => hdisjoint id hmem id List.mem_cons_self rfl
  refine TreeInv.updated h (updated_close offset hleft fun node _ => ⟨_, rfl⟩)
    (fun i hi => List.mem_of_mem_take hi) ?_ (position + 1) ?_ hpos hbracket.le
  · intro i hi
    rw [← Option.some.inj hi, ← hget]
    exact List.getElem_mem hlt
  · refine fun i hi => ⟨fun hmem => hdisjoint i hmem i (List.mem_cons_of_mem _ hi) rfl, ?_⟩
    intro heq
    rw [Option.some.inj heq] at htail
    exact (List.nodup_cons.1 htail).1 hi

theorem countNode_inv (h : tree.Inv casefold pos) (hcount : tree.countNode = .ok next) :
    next.Inv casefold pos ∧ next.text = tree.text := by
  rw [(countNode_ok hcount).1]
  exact ⟨h, rfl⟩

/-- The handlers keep the invariant, up to the end of their token. -/
theorem handle_inv {token : Token} (h : tree.Inv casefold pos) (hstart : pos ≤ token.start)
    (htag : token.isTag = true → token.start < token.stop tree.text)
    (hhandle : tree.handle casefold token = .ok next) :
    next.Inv casefold (token.stop tree.text) ∧ next.text = tree.text := by
  have hstarttag : ∀ {tag : String} {attrs : Attrs} {start length : ℕ} {next : HtmlTree},
      pos ≤ start → start < start + length →
      tree.handleStarttag casefold tag attrs start length = .ok next →
      next.Inv casefold (start + length) ∧ next.text = tree.text := by
    intro tag attrs start length next hstart hlength hhandle
    obtain ⟨counted, parent, hcounted, hparent, rfl⟩ := handleStarttag_ok hhandle
    obtain ⟨hinv, htext⟩ := countNode_inv h hcounted
    have hsame := (countNode_ok hcounted).1
    have htop : counted.top = tree.top := by
      rw [hsame]
      rfl
    have hparent' : counted.nodes[counted.top]? = some parent := by
      rw [htop, hsame]
      exact hparent
    rw [← htop]
    exact ⟨hinv.adopt hparent' hstart (by omega), htext⟩
  cases token with
  | startTag tag attrs start length => exact hstarttag hstart (htag rfl) hhandle
  | startEndTag tag attrs start length =>
      obtain ⟨started, hstarted, h'⟩ := ok_of_bind hhandle
      rw [← Except.ok.inj h']
      obtain ⟨hinv, htext⟩ := hstarttag hstart (htag rfl) hstarted
      split
      next => exact ⟨hinv, htext⟩
      next hvoid =>
        refine ⟨?_, htext⟩
        obtain ⟨counted, parent, -, -, rfl⟩ := handleStarttag_ok hstarted
        rcases adopt_cases casefold counted
          (startNode casefold tree.top parent tag attrs start length) with
          ⟨-, hnodes, hopened⟩ | ⟨hvoid', -⟩
        · exact hinv.closeTop hopened (by rw [hnodes]; exact getElem?_pushNode_new) rfl
        · exact absurd hvoid' hvoid
  | endTag tag start =>
      have hbracket := htag rfl
      rw [← Except.ok.inj hhandle, HtmlTree.handleEndtag]
      split
      next => exact ⟨TreeInv.mono h (hstart.trans hbracket.le), rfl⟩
      next position hposition =>
        obtain ⟨id, node, hid, -⟩ := openPosition_some hposition
        rw [List.getD_eq_getElem?_getD, hid]
        exact ⟨h.closeAt hid hstart hbracket, rfl⟩
  | data text start =>
      simp only [HtmlTree.handle, HtmlTree.handleData] at hhandle
      split at hhandle
      next =>
        rw [← Except.ok.inj hhandle]
        exact ⟨TreeInv.mono h hstart, rfl⟩
      next =>
        obtain ⟨counted, hcounted, h'⟩ := ok_of_bind hhandle
        obtain ⟨hinv, htext⟩ := countNode_inv h hcounted
        rw [← Except.ok.inj h']
        refine ⟨?_, htext⟩
        exact TreeInv.updated hinv (updated_data _ _ _ start start)
          (fun i hi => absurd hi List.not_mem_nil) (fun i hi => by cases hi) 0
          (fun i _ => ⟨List.not_mem_nil, by simp⟩) hstart le_rfl
  | comment start =>
      obtain ⟨hinv, htext⟩ := countNode_inv h hhandle
      exact ⟨TreeInv.mono hinv hstart, htext⟩

/-- The invariant after all tokens of a text. -/
theorem feed_inv {tokens : List Token} (h : tree.Inv casefold pos)
    (horder : InOrder tree.text pos tokens) (hfeed : tree.feed casefold tokens = .ok next) :
    next.Inv casefold tree.text.length ∧ next.text = tree.text := by
  induction tokens generalizing tree pos with
  | nil =>
      cases hfeed
      exact ⟨TreeInv.mono h horder, rfl⟩
  | cons token rest ih =>
      obtain ⟨hstart, htag, hrest⟩ := horder
      rw [HtmlTree.feed, List.foldlM_cons] at hfeed
      obtain ⟨middle, hmiddle, hfeed⟩ := ok_of_bind hfeed
      obtain ⟨hinv, htext⟩ := handle_inv h hstart htag hmiddle
      rw [← htext] at hrest hinv ⊢
      exact ih hinv hrest hfeed

theorem htmlTree_inv (text : List Char) (originPath : String) (budget : ParseBudget) :
    (htmlTree text originPath budget).Inv casefold 0 := by
  have hroot : ∀ {i : ℕ} {node : Node}, [root text][i]? = some node → i = 0 ∧ node = root text := by
    intro i node hnode
    obtain ⟨hlt, -⟩ := List.getElem?_eq_some_iff.1 hnode
    obtain rfl : i = 0 := by
      rw [List.length_singleton] at hlt
      omega
    exact ⟨rfl, (Option.some.inj hnode).symm⟩
  have helements : ∀ {i : ℕ} {node : Node}, [root text][i]? = some node → node.elements = [] := by
    intro i node hnode
    rw [(hroot hnode).2]
    rfl
  exact {
    root := ⟨root text, rfl, rfl, rfl, rfl⟩
    child := fun hnode hne => absurd (hroot hnode).1 hne
    spans := fun hnode hne => absurd (hroot hnode).1 hne
    closed := fun hnode hne => absurd (hroot hnode).1 hne
    element := fun hnode he => by
      rw [helements hnode] at he
      cases he
    increasing := fun hnode => by
      rw [helements hnode]
      exact .nil
    ordered := fun hnode => by
      rw [helements hnode]
      exact .nil
    inside := fun hnode hne => absurd (hroot hnode).1 hne
    nested := trivial
    decreasing := List.pairwise_singleton _ _
    opened := fun i hi => absurd hi List.not_mem_nil }

/-- The invariant of the finished tree, in which no element is open. -/
theorem close_inv (h : tree.Inv casefold tree.text.length) (failed : Bool) :
    (TreeInv casefold (tree.close failed).nodes [] tree.text.length) := by
  have hupdated := TreeInv.updated h
    (updated_leave tree.nodes tree.opened tree.text.length tree.text.length tree.text.length)
    (fun i hi => hi) (fun i hi => by cases hi) tree.opened.length
    (fun i hi => by
      rw [List.drop_length] at hi
      cases hi) le_rfl le_rfl
  rw [List.drop_length] at hupdated
  exact hupdated

end Handlers

section Paths

variable {casefold : String → String} {nodes : List Node} {opened : List ℕ} {pos : ℕ}

/-- Every node stands at its path. -/
theorem TreeInv.follow_path (h : TreeInv casefold nodes opened pos) {i : ℕ} {node : Node}
    (hnode : nodes[i]? = some node) : follow Node.elements nodes 0 node.path = some i := by
  induction i using Nat.strong_induction_on generalizing node with
  | _ i ih =>
      by_cases hi : i = 0
      · obtain ⟨root, hroot, hpath, -⟩ := h.root
        subst hi
        obtain rfl : node = root := Option.some.inj (hnode.symm.trans hroot)
        rw [hpath]
        rfl
      · obtain ⟨p, k, parent, hchild⟩ := h.child hnode hi
        rw [hchild.path]
        exact follow_snoc (ih p hchild.before hchild.lookup) hchild.lookup hchild.element

/-- A node is hidden exactly where it hides itself, or a node above it does. -/
theorem TreeInv.hidden_iff (h : TreeInv casefold nodes opened pos) {i : ℕ} {node : Node}
    (hnode : nodes[i]? = some node) : node.hidden = true ↔ ∃ j above, j ≠ 0 ∧
      nodes[j]? = some above ∧ above.path <+: node.path ∧ above.hides casefold = true := by
  induction i using Nat.strong_induction_on generalizing node with
  | _ i ih =>
      by_cases hi : i = 0
      · obtain ⟨root, hroot, hpath, hhidden, -⟩ := h.root
        subst hi
        obtain rfl : node = root := Option.some.inj (hnode.symm.trans hroot)
        rw [hhidden]
        refine ⟨fun hfalse => Bool.noConfusion hfalse, ?_⟩
        rintro ⟨j, above, hj, habove, hprefix, -⟩
        obtain ⟨p, k, parent, hchild⟩ := h.child habove hj
        rw [hpath, List.prefix_nil, hchild.path] at hprefix
        exact absurd hprefix (by simp)
      · obtain ⟨p, k, parent, hchild⟩ := h.child hnode hi
        rw [hchild.hidden, Bool.or_eq_true, ih p hchild.before hchild.lookup]
        constructor
        · rintro (⟨j, above, hj, habove, hprefix, hhides⟩ | hhides)
          · refine ⟨j, above, hj, habove, ?_, hhides⟩
            rw [hchild.path]
            exact hprefix.trans (List.prefix_append _ _)
          · exact ⟨i, node, hi, hnode, List.prefix_refl _, hhides⟩
        · rintro ⟨j, above, hj, habove, hprefix, hhides⟩
          rw [hchild.path, List.prefix_concat_iff] at hprefix
          rcases hprefix with heq | hprefix
          · right
            have hpath := h.follow_path habove
            rw [heq, ← hchild.path, h.follow_path hnode, Option.some.injEq] at hpath
            subst hpath
            obtain rfl : node = above := Option.some.inj (hnode.symm.trans habove)
            exact hhides
          · exact .inl ⟨j, above, hj, habove, hprefix, hhides⟩

end Paths

end SearchTrust.Site
