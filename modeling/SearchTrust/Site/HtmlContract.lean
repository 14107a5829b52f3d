/-
What the finished tree of a page is, whatever its tokens: a sound closed element was closed
by its own tag and spans its elements in order, what is inside a hidden element is hidden,
and the nodes are within their limits.
-/
import SearchTrust.Site.HtmlInvariant

namespace SearchTrust.Site

open SearchTrust.Order
open SearchTrust.Report.Outcomes

section Closing

variable {casefold : String → String} {tree next : HtmlTree}

/-- The node was closed and sound before, too. -/
def ClosedBefore (tree : HtmlTree) (i : ℕ) (node : Node) : Prop :=
  ∃ old, tree.nodes[i]? = some old ∧ old.closed = true ∧ old.bad = false ∧ old.tag = node.tag ∧
    old.start = node.start ∧ old.contentEnd = node.contentEnd

/-- The token closes the innermost element, or the one that it starts. -/
def ClosedNow (tree : HtmlTree) (token : Token) (i : ℕ) (node : Node) : Prop :=
  (∃ attrs length, token = .startEndTag node.tag attrs node.start length ∧
    tree.nodes.length = i) ∨
  (token = .endTag node.tag node.contentEnd ∧ tree.opened.head? = some i)

/-- The nodes after a start tag: those before it, and one that is open or void. -/
theorem handleStarttag_lookup {tag : String} {attrs : Attrs} {start length i : ℕ} {node : Node}
    (h : tree.handleStarttag casefold tag attrs start length = .ok next)
    (hnode : next.nodes[i]? = some node) :
    (∃ old, tree.nodes[i]? = some old ∧ SameNode old node) ∨
      (i = tree.nodes.length ∧ node.tag = tag ∧ node.start = start ∧
        (node.closed = true → tag ∈ void)) := by
  obtain ⟨counted, parent, hcounted, -, rfl⟩ := handleStarttag_ok h
  have hnodes : counted.nodes = tree.nodes := by rw [(countNode_ok hcounted).1]
  rcases adopt_cases casefold counted (startNode casefold tree.top parent tag attrs start length)
    with ⟨-, hpush, -⟩ | ⟨hvoid, hpush, -⟩
  · rw [hpush, hnodes] at hnode
    rcases getElem?_pushNode hnode with ⟨hi, rfl⟩ | ⟨old, hold, hsame, -⟩
    · exact .inr ⟨hi, rfl, rfl, fun hclosed => Bool.noConfusion hclosed⟩
    · exact .inl ⟨old, hold, hsame⟩
  · rw [hpush, hnodes, getElem?_updateAt, Option.map_eq_some_iff] at hnode
    obtain ⟨found, hfound, rfl⟩ := hnode
    rcases getElem?_pushNode hfound with ⟨hi, rfl⟩ | ⟨old, hold, hsame, -⟩
    · refine .inr ⟨hi, ?_, ?_, fun _ => hvoid⟩ <;> split <;> rfl
    · have hne : i ∉ [tree.nodes.length] := by
        have := (List.getElem?_eq_some_iff.1 hold).1
        simp only [List.mem_singleton]
        omega
      rw [if_neg hne]
      exact .inl ⟨old, hold, hsame⟩

/-- A node that a token left closed and sound was so before, or it is void, or the token
closed it. -/
theorem handle_closed {token : Token} {i : ℕ} {node : Node}
    (h : tree.handle casefold token = .ok next) (hnode : next.nodes[i]? = some node)
    (hclosed : node.closed = true) (hbad : node.bad = false) :
    ClosedBefore tree i node ∨ node.tag ∈ void ∨ ClosedNow tree token i node := by
  have hbefore : ∀ {old : Node}, tree.nodes[i]? = some old → SameNode old node →
      ClosedBefore tree i node := fun hold hsame =>
    ⟨_, hold, hsame.closed ▸ hclosed, hsame.bad ▸ hbad, hsame.tag.symm, hsame.start.symm,
      hsame.contentEnd.symm⟩
  cases token with
  | startTag tag attrs start length =>
      rcases handleStarttag_lookup h hnode with ⟨old, hold, hsame⟩ | ⟨-, htag, -, hvoid⟩
      · exact .inl (hbefore hold hsame)
      · exact .inr (.inl (htag ▸ hvoid hclosed))
  | startEndTag tag attrs start length =>
      obtain ⟨started, hstarted, h'⟩ := ok_of_bind h
      rw [← Except.ok.inj h'] at hnode
      split at hnode
      next hvoid =>
        rcases handleStarttag_lookup hstarted hnode with ⟨old, hold, hsame⟩ | ⟨-, htag, -⟩
        · exact .inl (hbefore hold hsame)
        · exact .inr (.inl (htag ▸ hvoid))
      next hvoid =>
        rw [HtmlTree.closeTop, getElem?_updateAt, Option.map_eq_some_iff] at hnode
        obtain ⟨found, hfound, hfound'⟩ := hnode
        rcases handleStarttag_lookup hstarted hfound with ⟨old, hold, hsame⟩ | ⟨hi, htag, hstart, -⟩
        · have hlt := (List.getElem?_eq_some_iff.1 hold).1
          have htop : i ∉ [started.top] := by
            obtain ⟨counted, parent, hcounted, -, rfl⟩ := handleStarttag_ok hstarted
            have hnodes : counted.nodes = tree.nodes := by rw [(countNode_ok hcounted).1]
            rcases adopt_cases casefold counted
              (startNode casefold tree.top parent tag attrs start length) with
              ⟨-, -, hopened⟩ | ⟨hvoid', -⟩
            · rw [HtmlTree.top, hopened, List.headD_cons, hnodes, List.mem_singleton]
              omega
            · exact absurd hvoid' hvoid
          rw [if_neg htop] at hfound'
          subst hfound'
          exact .inl (hbefore hold hsame)
        · refine .inr (.inr (.inl ⟨attrs, length, ?_, hi.symm⟩))
          have hsame : node.tag = found.tag ∧ node.start = found.start := by
            rw [← hfound']
            split <;> exact ⟨rfl, rfl⟩
          rw [hsame.1, hsame.2, htag, hstart]
  | endTag tag start =>
      rw [← Except.ok.inj h, HtmlTree.handleEndtag] at hnode
      split at hnode
      next => exact .inl ⟨node, hnode, hclosed, hbad, rfl, rfl, rfl⟩
      next position hposition =>
        obtain ⟨id, closing, hid, hclosing, htag⟩ := openPosition_some hposition
        rw [List.getD_eq_getElem?_getD, hid, Option.getD_some, HtmlTree.closeAt,
          getElem?_updateAt, getElem?_updateAt, Option.map_map, Option.map_eq_some_iff] at hnode
        obtain ⟨old, hold, hnode⟩ := hnode
        simp only [Function.comp_apply, List.mem_singleton] at hnode
        by_cases hi : i = id
        · subst hi
          obtain rfl : old = closing := Option.some.inj (hold.symm.trans hclosing)
          rw [if_pos rfl] at hnode
          refine .inr (.inr (.inr ?_))
          have hzero : position = 0 := by
            rw [← hnode] at hbad
            simpa using (Bool.or_eq_false_iff.1 hbad).2
          have htag' : node.tag = tag := by
            rw [← hnode, ← htag]
            split <;> rfl
          have hend : node.contentEnd = start := by
            rw [← hnode]
            rfl
          rw [htag', hend]
          refine ⟨rfl, ?_⟩
          rw [hzero] at hid
          rw [List.head?_eq_getElem?, hid]
        · rw [if_neg hi] at hnode
          split at hnode
          next =>
            rw [← hnode] at hbad
            exact Bool.noConfusion hbad
          next =>
            subst hnode
            exact .inl ⟨old, hold, hclosed, hbad, rfl, rfl, rfl⟩
  | data text start =>
      simp only [HtmlTree.handle, HtmlTree.handleData] at h
      split at h
      next =>
        rw [← Except.ok.inj h] at hnode
        exact .inl ⟨node, hnode, hclosed, hbad, rfl, rfl, rfl⟩
      next =>
        obtain ⟨counted, hcounted, h'⟩ := ok_of_bind h
        rw [← Except.ok.inj h', getElem?_updateAt, (countNode_ok hcounted).1,
          Option.map_eq_some_iff] at hnode
        obtain ⟨old, hold, rfl⟩ := hnode
        refine .inl (hbefore hold ?_)
        split
        · exact ⟨rfl, rfl, rfl, rfl, rfl, rfl, rfl, rfl, rfl, rfl, rfl⟩
        · exact .refl old
  | comment start =>
      rw [(countNode_ok h).1] at hnode
      exact .inl ⟨node, hnode, hclosed, hbad, rfl, rfl, rfl⟩

variable (casefold) in
/-- The element is void, or a token closed it: its own end tag while it was the innermost
open element, or the tag that started it. -/
def ClosedByTag (start : HtmlTree) (tokens : List Token) (i : ℕ) (node : Node) : Prop :=
  node.tag ∈ void ∨ ∃ before token after reached, tokens = before ++ token :: after ∧
    start.feed casefold before = .ok reached ∧ ClosedNow reached token i node

/-- A sound closed node was closed by its tag. -/
theorem feed_closed {start : HtmlTree} {tokens : List Token} {i : ℕ} {node : Node}
    (hstart : ∀ node, start.nodes[i]? ≠ some node)
    (h : start.feed casefold tokens = .ok next) (hnode : next.nodes[i]? = some node)
    (hclosed : node.closed = true) (hbad : node.bad = false) :
    ClosedByTag casefold start tokens i node := by
  induction tokens using List.reverseRecOn generalizing next node with
  | nil =>
      cases h
      exact absurd hnode (hstart node)
  | append_singleton tokens token ih =>
      rw [HtmlTree.feed, List.foldlM_append] at h
      obtain ⟨reached, hreached, h⟩ := ok_of_bind h
      obtain ⟨last, h, hlast⟩ := ok_of_bind h
      cases hlast
      rcases handle_closed h hnode hclosed hbad with
        ⟨old, hold, hclosed', hbad', htag, hstart', hend⟩ | hvoid | hnow
      · rcases ih hreached hold hclosed' hbad' with hvoid | ⟨before, token', after, reached', heq,
          hfeed, hnow⟩
        · exact .inl (htag ▸ hvoid)
        · refine .inr ⟨before, token', after ++ [token], reached', by simp [heq], hfeed, ?_⟩
          rw [ClosedNow, htag, hstart', hend] at hnow
          exact hnow
      · exact .inl hvoid
      · exact .inr ⟨tokens, token, [], reached, rfl, hreached, hnow⟩

end Closing

section Counting

variable {casefold : String → String} {tree next : HtmlTree}

/-- What is counted of a tree: its nodes are within the limits, and in the budget. -/
structure Counted (start tree : HtmlTree) : Prop where
  limits : tree.budget.limits = start.budget.limits
  total : tree.budget.htmlNodes = start.budget.htmlNodes + tree.nodeCount
  within : tree.nodeCount = 0 ∨ tree.nodeCount ≤ tree.budget.limits.maxHtmlNodesPerPage ∧
    tree.budget.htmlNodes ≤ tree.budget.limits.maxHtmlNodesTotal

theorem Counted.countNode {start : HtmlTree} (h : Counted start tree)
    (hcount : tree.countNode = .ok next) : Counted start next := by
  obtain ⟨hnext, hlimits⟩ := countNode_ok hcount
  refine ⟨?_, ?_, .inr hlimits⟩
  · rw [hnext]
    exact h.limits
  · rw [hnext]
    dsimp only
    rw [h.total]
    omega

theorem Counted.handle {start : HtmlTree} {token : Token} (h : Counted start tree)
    (hhandle : tree.handle casefold token = .ok next) : Counted start next := by
  have hstarttag : ∀ {tag : String} {attrs : Attrs} {at' length : ℕ} {next : HtmlTree},
      tree.handleStarttag casefold tag attrs at' length = .ok next → Counted start next := by
    intro tag attrs at' length next hhandle
    obtain ⟨counted, parent, hcounted, -, rfl⟩ := handleStarttag_ok hhandle
    have hcounted' := h.countNode hcounted
    exact ⟨hcounted'.limits, hcounted'.total, hcounted'.within⟩
  cases token with
  | startTag tag attrs at' length => exact hstarttag hhandle
  | startEndTag tag attrs at' length =>
      obtain ⟨started, hstarted, h'⟩ := ok_of_bind hhandle
      have hstarted' := hstarttag hstarted
      rw [← Except.ok.inj h']
      split
      · exact hstarted'
      · exact ⟨hstarted'.limits, hstarted'.total, hstarted'.within⟩
  | endTag tag at' =>
      rw [← Except.ok.inj hhandle, HtmlTree.handleEndtag]
      split <;> exact ⟨h.limits, h.total, h.within⟩
  | data text at' =>
      simp only [HtmlTree.handle, HtmlTree.handleData] at hhandle
      split at hhandle
      next =>
        rw [← Except.ok.inj hhandle]
        exact h
      next =>
        obtain ⟨counted, hcounted, h'⟩ := ok_of_bind hhandle
        have hcounted' := h.countNode hcounted
        rw [← Except.ok.inj h']
        exact ⟨hcounted'.limits, hcounted'.total, hcounted'.within⟩
  | comment at' => exact h.countNode hhandle

theorem Counted.feed {start : HtmlTree} {tokens : List Token} (h : Counted start tree)
    (hfeed : tree.feed casefold tokens = .ok next) : Counted start next := by
  induction tokens generalizing tree with
  | nil =>
      cases hfeed
      exact h
  | cons token rest ih =>
      rw [HtmlTree.feed, List.foldlM_cons] at hfeed
      obtain ⟨middle, hmiddle, hfeed⟩ := ok_of_bind hfeed
      exact ih (h.handle hmiddle) hfeed

end Counting

section Trees

variable (casefold : String → String)

/-- The closed elements of a node, in the order of the text. -/
def HtmlTree.closedElements (tree : HtmlTree) (node : Node) : List Node :=
  (node.elements.filterMap fun e => tree.nodes[e]?).filter (·.closed)

/-- An element that was closed by its own tag, and the spans of it and of its closed
elements. -/
structure SoundlyClosed (start : HtmlTree) (tokens : List Token) (tree : HtmlTree) (i : ℕ)
    (node : Node) : Prop where
  byTag : ClosedByTag casefold start tokens i node
  start : node.start < node.contentStart
  content : node.contentStart ≤ node.contentEnd
  stop : node.contentEnd ≤ node.stop
  length : node.stop ≤ tree.text.length
  inside : ∀ child ∈ tree.closedElements node,
    node.contentStart ≤ child.start ∧ child.start < child.stop ∧ child.stop ≤ node.contentEnd
  ordered : (tree.closedElements node).Pairwise fun first second => first.stop ≤ second.start

/-- The tree that some tokens build. Its root is no element. -/
structure IsTreeOf (start : HtmlTree) (tokens : List Token) (tree : HtmlTree) : Prop where
  paths : ∀ (i : ℕ) (node : Node), tree.nodes[i]? = some node → tree.atPath node.path = some i
  closed : ∀ (i : ℕ) (node : Node), tree.nodes[i]? = some node → i ≠ 0 → node.closed = true →
    node.bad = false → SoundlyClosed casefold start tokens tree i node
  hidden : ∀ (i : ℕ) (node : Node), tree.nodes[i]? = some node → (node.hidden = true ↔
    ∃ j above, j ≠ 0 ∧ tree.nodes[j]? = some above ∧ above.path <+: node.path ∧
      above.hides casefold = true)
  page : tree.nodeCount ≤ start.budget.limits.maxHtmlNodesPerPage
  total : start.budget.htmlNodes ≤ start.budget.limits.maxHtmlNodesTotal ∨ 0 < tree.nodeCount →
    tree.budget.htmlNodes ≤ start.budget.limits.maxHtmlNodesTotal

/-- The tree before the tokens of a page, which is charged to the budget. -/
def pageStart (text : List Char) (originPath : String) (budget : ParseBudget) : HtmlTree :=
  htmlTree text originPath
    { budget with htmlBytes := budget.htmlBytes + (String.ofList text).utf8ByteSize }

variable {casefold}

/-- A node of the finished tree that is sound and closed was so before, too. -/
theorem close_lookup {tree : HtmlTree} {failed : Bool} {i : ℕ} {node : Node}
    (hnode : (tree.close failed).nodes[i]? = some node) (hbad : node.bad = false) :
    tree.nodes[i]? = some node := by
  rw [HtmlTree.close, getElem?_updateAt, Option.map_eq_some_iff] at hnode
  obtain ⟨old, hold, hnode⟩ := hnode
  split at hnode
  next =>
    rw [← hnode] at hbad
    exact Bool.noConfusion hbad
  next => exact hnode ▸ hold

/-- The closed elements of a node stand one after the other in its content. -/
theorem TreeInv.closedElements {tree : HtmlTree} {opened : List ℕ} {pos i : ℕ} {node : Node}
    (h : TreeInv casefold tree.nodes opened pos) (hnode : tree.nodes[i]? = some node)
    (hne : i ≠ 0) (hdone : node.closed = true) :
    (∀ child ∈ tree.closedElements node,
      node.contentStart ≤ child.start ∧ child.start < child.stop ∧
        child.stop ≤ node.contentEnd) ∧
      (tree.closedElements node).Pairwise fun first second => first.stop ≤ second.start := by
  constructor
  · intro child hchild
    obtain ⟨hmem, hdone'⟩ := List.mem_filter.1 hchild
    obtain ⟨e, he, hlookup⟩ := List.mem_filterMap.1 hmem
    obtain ⟨hlt, child', hlookup', hof⟩ := h.element hnode he
    obtain rfl : child = child' := Option.some.inj (hlookup.symm.trans hlookup')
    have hne' : e ≠ 0 := by omega
    obtain ⟨p, k, parent, hparent⟩ := h.child hlookup hne'
    obtain rfl : i = p := Option.some.inj (hof.symm.trans hparent.parentId)
    obtain rfl : node = parent := Option.some.inj (hnode.symm.trans hparent.lookup)
    have hspan := h.spans hlookup hne'
    have hends := h.closed hlookup hne' hdone'
    exact ⟨hparent.start, by omega, h.inside hnode hne hdone he hlookup hdone'⟩
  · have hordered : (node.elements.filterMap fun e => tree.nodes[e]?).Pairwise
        fun first second => first.closed = true → first.stop ≤ second.start :=
      (h.ordered hnode).filterMap _ fun a b hab first hfirst second hsecond =>
        hab first second hfirst hsecond
    refine (hordered.filter _).imp_of_mem fun {first second} hfirst _ hstop => ?_
    exact hstop (List.mem_filter.1 hfirst).2

/-- The tree of a page, for every sequence of tokens in the order of its text. -/
theorem parseHtml_tree (casefold : String → String) (text : List Char) (originPath : String)
    (budget : ParseBudget) (tokens : List Token) (failed : Bool) {tree : HtmlTree}
    (horder : InOrder text 0 tokens)
    (h : parseHtml casefold text originPath budget tokens failed = .ok tree) :
    IsTreeOf casefold (pageStart text originPath budget) tokens tree := by
  unfold parseHtml at h
  dsimp only at h
  split at h
  next =>
    obtain ⟨fed, hfed, rfl⟩ := ok_of_map h
    obtain ⟨hinv, htext⟩ := feed_inv (htmlTree_inv text originPath _) horder hfed
    have hclosed : TreeInv casefold (fed.close failed).nodes [] (fed.close failed).text.length :=
      close_inv (htext ▸ hinv) failed
    have hcounted : Counted (pageStart text originPath budget) fed :=
      Counted.feed ⟨rfl, rfl, .inl rfl⟩ hfed
    have hstart : ∀ i, i ≠ 0 → ∀ node, (pageStart text originPath budget).nodes[i]? ≠ some node := by
      intro i hne node hnode
      have := (List.getElem?_eq_some_iff.1 hnode).1
      simp only [pageStart, htmlTree, List.length_singleton] at this
      omega
    refine ⟨fun i node hnode => hclosed.follow_path hnode, ?_,
      fun i node hnode => hclosed.hidden_iff hnode, ?_, ?_⟩
    · intro i node hnode hne hdone hbad
      obtain ⟨hinside, hordered⟩ := hclosed.closedElements hnode hne hdone
      have hends := hclosed.closed hnode hne hdone
      exact ⟨feed_closed (hstart i hne) hfed (close_lookup hnode hbad) hdone hbad,
        (hclosed.spans hnode hne).1, hends.1, hends.2.1, hends.2.2, hinside, hordered⟩
    · rw [← hcounted.limits]
      rcases hcounted.within with hzero | hwithin
      · exact (le_of_eq hzero).trans (Nat.zero_le _)
      · exact hwithin.1
    · rw [← hcounted.limits]
      intro hsome
      rcases hcounted.within with hzero | hwithin
      · have htotal := hcounted.total
        rw [hzero, Nat.add_zero] at htotal
        rcases hsome with hsome | hsome
        · exact htotal.le.trans hsome
        · exact absurd hzero hsome.ne'
      · exact hwithin.2
  next => cases h

end Trees

section Origins

/-- `CandidateOrigin` of an element. -/
structure CandidateOrigin where
  originPath : String
  start : ℕ
  stop : ℕ
  elementPath : List ℕ
  excerpt : List Char
  excerptTruncated : Bool
deriving DecidableEq

/-- `CandidateOrigin.layout`, of an element. -/
def CandidateOrigin.layout (origin : CandidateOrigin) : Bool :=
  origin.start < origin.stop && origin.elementPath ≠ []

/-- `origin`, of an element. -/
def origin (tree : HtmlTree) (node : Node) : CandidateOrigin where
  originPath := tree.originPath
  start := node.start
  stop := node.stop
  elementPath := node.path
  excerpt := (tree.text.take (min node.stop (node.start + 360))).drop node.start
  excerptTruncated := 360 < node.stop - node.start

end Origins

section Samples

/-- Limits for a sample, with one node for all pages. -/
def sampleLimits : SiteBusinessLimits where
  maxHtmlBytesPerPage := 100
  maxHtmlBytesTotal := 200
  maxHtmlDepth := 4
  maxHtmlNodesPerPage := 10
  maxHtmlNodesTotal := 1
  maxJsonldBlocks := 1
  maxJsonldBytes := 10
  maxJsonDepth := 1
  maxJsonNodesPerPage := 1

theorem parseHtml_tree_paragraph : ∃ tree,
    parseHtml id "<p></p>".toList "/html" ⟨sampleLimits, 0, 0⟩
      [.startTag "p" [] 0 3, .endTag "p" 3] false = .ok tree ∧
    IsTreeOf id (pageStart "<p></p>".toList "/html" ⟨sampleLimits, 0, 0⟩)
      [.startTag "p" [] 0 3, .endTag "p" 3] tree := by
  have hok : (parseHtml id "<p></p>".toList "/html" ⟨sampleLimits, 0, 0⟩
      [.startTag "p" [] 0 3, .endTag "p" 3] false).isOk = true := by
    decide
  cases htree : parseHtml id "<p></p>".toList "/html" ⟨sampleLimits, 0, 0⟩
      [.startTag "p" [] 0 3, .endTag "p" 3] false with
  | error budget =>
      rw [htree] at hok
      cases hok
  | ok tree =>
      exact ⟨tree, rfl, parseHtml_tree id _ _ _ _ false
        ⟨by decide, fun _ => by decide, by decide, fun _ => by decide, by
          unfold InOrder; decide⟩ htree⟩

/-- A page without nodes is built on a budget that the page before it has exceeded. -/
theorem budget_stays_exceeded : ∃ budget tree,
    parseHtml id "<!--a--><!--b-->".toList "/first" ⟨sampleLimits, 0, 0⟩
      [.comment 0, .comment 8] false = .error budget ∧
    InOrder "<!--a--><!--b-->".toList 0 [.comment 0, .comment 8] ∧
    parseHtml id "<!doctype html>".toList "/second" budget [] false = .ok tree ∧
    ¬ tree.budget.htmlNodes ≤ budget.limits.maxHtmlNodesTotal := by
  have hfirst : parseHtml id "<!--a--><!--b-->".toList "/first" ⟨sampleLimits, 0, 0⟩
      [.comment 0, .comment 8] false = .error ⟨sampleLimits, 16, 2⟩ := by
    decide
  have hsecond : (parseHtml id "<!doctype html>".toList "/second" ⟨sampleLimits, 16, 2⟩ []
      false).map (·.budget.htmlNodes) = .ok 2 := by
    decide
  obtain ⟨tree, htree, hnodes⟩ := ok_of_map hsecond
  refine ⟨_, tree, hfirst, ⟨by decide, fun h => Bool.noConfusion h, by decide,
    fun h => Bool.noConfusion h, by unfold InOrder; decide⟩, htree, ?_⟩
  rw [hnodes]
  decide

end Samples

end SearchTrust.Site
