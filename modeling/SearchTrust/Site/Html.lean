/-
The bounded tree of a page: the handlers of its tokens keep a stack of open elements, and
record where in the text each element starts and ends.
-/
import SearchTrust.Order.Arena
import SearchTrust.Web.UrlText

namespace SearchTrust.Site

open SearchTrust.Order

/-- `SiteBusinessLimits`, as far as the tree and the JSON-LD blocks read it. -/
structure SiteBusinessLimits where
  maxHtmlBytesPerPage : ℕ
  maxHtmlBytesTotal : ℕ
  maxHtmlDepth : ℕ
  maxHtmlNodesPerPage : ℕ
  maxHtmlNodesTotal : ℕ
  maxJsonldBlocks : ℕ
  maxJsonldBytes : ℕ
  maxJsonDepth : ℕ
  maxJsonNodesPerPage : ℕ
deriving DecidableEq

/-- `ParseBudget`, shared by the pages of a site. -/
structure ParseBudget where
  limits : SiteBusinessLimits
  htmlBytes : ℕ
  htmlNodes : ℕ
deriving DecidableEq

/-- The attributes of a tag, as the parser gives them. -/
abbrev Attrs := List (String × Option String)

/-- `VOID`. -/
def void : List String :=
  ["area", "base", "br", "col", "embed", "hr", "img", "input", "link", "meta", "param", "source",
    "track", "wbr"]

/-- `IGNORED`. -/
def ignored : List String := ["script", "style", "noscript", "template", "svg"]

/-- `Node`. The other nodes are named by their indexes; `stop` is the field `end`. -/
structure Node where
  tag : String
  attrs : Attrs
  start : ℕ
  contentStart : ℕ
  path : List ℕ
  suppressed : Bool
  hidden : Bool
  stop : ℕ
  contentEnd : ℕ
  closed : Bool
  bad : Bool
  parent : Option ℕ
  children : List (String ⊕ ℕ)
  elements : List ℕ
deriving DecidableEq

/-- A token of the text, with its start; of a start tag the length of its text, too. -/
inductive Token where
  | startTag (tag : String) (attrs : Attrs) (start length : ℕ)
  | startEndTag (tag : String) (attrs : Attrs) (start length : ℕ)
  | endTag (tag : String) (start : ℕ)
  | data (text : String) (start : ℕ)
  | comment (start : ℕ)
deriving DecidableEq

/-- `HtmlTree`. The root is the node 0; `opened` is the stack without it, the innermost
element first. -/
structure HtmlTree where
  text : List Char
  originPath : String
  budget : ParseBudget
  nodes : List Node
  opened : List ℕ
  jsonBlocks : List ℕ
  nodeCount : ℕ
  domFailed : Bool
deriving DecidableEq

variable (casefold : String → String)

section Nodes

/-- `dict(attrs)`, whose values are the last ones. -/
def dictOf : Attrs → Attrs
  | [] => []
  | (key, value) :: rest =>
      if rest.any (·.1 = key) then dictOf rest else (key, value) :: dictOf rest

/-- `attrs_dict.get(key) or ""`. -/
def attrText (attrs : Attrs) (key : String) : String := ((attrs.lookup key).join).getD ""

/-- The attributes hide an element. -/
def suppresses (attrs : Attrs) : Bool :=
  attrs.any (·.1 = "hidden") || casefold (attrText attrs "aria-hidden") = "true"

/-- The root of a text. -/
def root (text : List Char) : Node where
  tag := "document"
  attrs := []
  start := 0
  contentStart := 0
  path := []
  suppressed := false
  hidden := false
  stop := text.length
  contentEnd := text.length
  closed := true
  bad := false
  parent := none
  children := []
  elements := []

/-- The node of a start tag. -/
def startNode (parentId : ℕ) (parent : Node) (tag : String) (attrs : Attrs)
    (start length : ℕ) : Node :=
  let suppressed := parent.hidden || suppresses casefold (dictOf attrs)
  { tag := tag
    attrs := dictOf attrs
    start := start
    contentStart := start + length
    path := parent.path ++ [parent.elements.length]
    suppressed := suppressed
    hidden := suppressed || tag ∈ ignored
    stop := 0
    contentEnd := 0
    closed := false
    bad := (dictOf attrs).length ≠ attrs.length
    parent := some parentId
    children := []
    elements := [] }

/-- The node, closed. -/
def Node.shut (node : Node) (contentEnd stop : ℕ) : Node :=
  { node with closed := true, stop := stop, contentEnd := contentEnd }

/-- The node, without an end tag of its own. -/
def Node.leave (node : Node) (offset : ℕ) : Node :=
  { node with stop := offset, contentEnd := offset, bad := true }

/-- The node, with one more element. -/
def Node.adopt (node : Node) (id : ℕ) : Node :=
  { node with children := node.children ++ [.inr id], elements := node.elements ++ [id] }

end Nodes

namespace HtmlTree

variable (tree : HtmlTree)

/-- `self.stack[-1]`. -/
def top : ℕ := tree.opened.headD 0

/-- `count_node`. The error is `LIMIT_EXCEEDED`, with the budget that it leaves. -/
def countNode : Except ParseBudget HtmlTree :=
  let budget := { tree.budget with htmlNodes := tree.budget.htmlNodes + 1 }
  if tree.nodeCount + 1 ≤ budget.limits.maxHtmlNodesPerPage ∧
      budget.htmlNodes ≤ budget.limits.maxHtmlNodesTotal then
    .ok { tree with nodeCount := tree.nodeCount + 1, budget := budget }
  else .error budget

/-- The block is JSON-LD that is not suppressed. -/
def isJsonBlock (node : Node) : Bool :=
  node.tag = "script" && casefold (.ofList (Web.strip (attrText node.attrs "type").toList)) =
    "application/ld+json" && ! node.suppressed

/-- A node enters the tree, open unless its element is void. -/
def adopt (node : Node) : HtmlTree :=
  let id := tree.nodes.length
  { tree with
    nodes := updateAt [tree.top] (·.adopt id) tree.nodes ++
      [if node.tag ∈ void then node.shut node.contentStart node.contentStart else node]
    opened := if node.tag ∈ void then tree.opened else id :: tree.opened
    jsonBlocks := if isJsonBlock casefold node then tree.jsonBlocks ++ [id] else tree.jsonBlocks
    domFailed := tree.domFailed || node.bad }

/-- `handle_starttag`. -/
def handleStarttag (tag : String) (attrs : Attrs) (start length : ℕ) :
    Except ParseBudget HtmlTree := do
  let tree ← tree.countNode
  match tree.nodes[tree.top]? with
  | none => .error tree.budget
  | some parent =>
      let node := startNode casefold tree.top parent tag attrs start length
      if ¬ tree.opened.length + 1 ≤ tree.budget.limits.maxHtmlDepth then .error tree.budget
      else if isJsonBlock casefold node ∧
          ¬ tree.jsonBlocks.length < tree.budget.limits.maxJsonldBlocks then .error tree.budget
      else .ok (tree.adopt casefold node)

/-- The innermost element is closed where its content starts. -/
def closeTop : HtmlTree :=
  { tree with
    nodes := updateAt [tree.top] (fun node => node.shut node.contentStart node.contentStart)
      tree.nodes
    opened := tree.opened.tail }

/-- `handle_startendtag`. -/
def handleStartendtag (tag : String) (attrs : Attrs) (start length : ℕ) :
    Except ParseBudget HtmlTree := do
  let tree ← tree.handleStarttag casefold tag attrs start length
  return if tag ∈ void then tree else tree.closeTop

/-- `text.find(">", offset) + 1`. -/
def bracketEnd (text : List Char) (offset : ℕ) : ℕ :=
  match (text.drop offset).findIdx? (· = '>') with
  | some k => offset + k + 1
  | none => 0

/-- The element at a place of the stack is closed, and those inside it are left. -/
def closeAt (position offset : ℕ) (id : ℕ) : HtmlTree :=
  let left := updateAt (tree.opened.take position) (·.leave offset) tree.nodes
  { tree with
    nodes := updateAt [id]
      (fun node => { node.shut offset (bracketEnd tree.text offset) with
        bad := node.bad || position ≠ 0 }) left
    opened := tree.opened.drop (position + 1)
    domFailed := tree.domFailed || position ≠ 0 }

/-- The place in the stack of the innermost element with a tag. -/
def openPosition (tag : String) : Option ℕ :=
  tree.opened.findIdx? fun i => (tree.nodes[i]?.map Node.tag) = some tag

/-- `handle_endtag`. -/
def handleEndtag (tag : String) (start : ℕ) : HtmlTree :=
  match tree.openPosition tag with
  | none => { tree with domFailed := true }
  | some position => tree.closeAt position start (tree.opened.getD position 0)

/-- `handle_data`. -/
def handleData (text : String) : Except ParseBudget HtmlTree :=
  if text = "" then .ok tree
  else do
    let tree ← tree.countNode
    return { tree with
      nodes := updateAt [tree.top]
        (fun node => { node with children := node.children ++ [.inl text] }) tree.nodes }

/-- The handler of a token. -/
def handle : Token → Except ParseBudget HtmlTree
  | .startTag tag attrs start length => tree.handleStarttag casefold tag attrs start length
  | .startEndTag tag attrs start length => tree.handleStartendtag casefold tag attrs start length
  | .endTag tag start => .ok (tree.handleEndtag tag start)
  | .data text _ => tree.handleData text
  | .comment _ => tree.countNode

/-- The handlers of the tokens that the parser finds. -/
def feed (tokens : List Token) : Except ParseBudget HtmlTree :=
  tokens.foldlM (fun tree token => tree.handle casefold token) tree

/-- The end of `finish`: elements that are still open end with the text. `failed` tells
that the parser gave up before. -/
def close (failed : Bool) : HtmlTree :=
  { tree with
    nodes := updateAt tree.opened (·.leave tree.text.length) tree.nodes
    domFailed := tree.domFailed || failed || tree.opened ≠ [] }

/-- `at_path`. -/
def atPath (path : List ℕ) : Option ℕ := follow Node.elements tree.nodes 0 path

end HtmlTree

/-- `HtmlTree(text, origin_path, budget)`. -/
def htmlTree (text : List Char) (originPath : String) (budget : ParseBudget) : HtmlTree where
  text := text
  originPath := originPath
  budget := budget
  nodes := [root text]
  opened := []
  jsonBlocks := []
  nodeCount := 0
  domFailed := false

/-- `parse_html`, of a text in which the parser finds some tokens. -/
def parseHtml (text : List Char) (originPath : String) (budget : ParseBudget)
    (tokens : List Token) (failed : Bool) : Except ParseBudget HtmlTree :=
  let size := (String.ofList text).utf8ByteSize
  let budget := { budget with htmlBytes := budget.htmlBytes + size }
  if size ≤ budget.limits.maxHtmlBytesPerPage ∧
      budget.htmlBytes ≤ budget.limits.maxHtmlBytesTotal then
    ((htmlTree text originPath budget).feed casefold tokens).map (·.close failed)
  else .error budget

end SearchTrust.Site
