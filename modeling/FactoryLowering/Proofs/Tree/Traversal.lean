import FactoryLowering.CompilationUnit
import FactoryLowering.Proofs.Tree.CallEdit

/-! # Reading and editing come by the same nodes

Reading and editing are written down apart from each other, for each kind of node. Both are compared
with a third description, the children of a node, which says nothing about walks: a node is entered,
its children are gone through from left to right, and then it is left. Nodes are told apart by their
addresses, so that "each node once" has a meaning also where two nodes are equal.
-/
namespace FactoryLowering

variable {σ : Type}

def Visit.isTold : Visit → Bool
  | .identifier _ | .typeRef _ => false
  | _ => true

/-- The visits that reading and editing have in common. -/
def told (vs : List Visit) : List Visit := vs.filter Visit.isTold

@[simp] theorem told_append (vs ws : List Visit) : told (vs ++ ws) = told vs ++ told ws :=
  List.filter_append ..

theorem told_of_announced {vs : List Visit} (h : ∀ v ∈ vs, v.Announced) : told vs = vs := by
  refine List.filter_eq_self.mpr fun v hv => ?_
  cases v <;> first | rfl | exact (h _ hv).elim

theorem told_of_unannounced {vs : List Visit} (h : ∀ v ∈ vs, v.Unannounced) : told vs = [] := by
  refine List.filter_eq_nil_iff.mpr fun v hv => ?_
  cases v <;> first | exact Bool.false_ne_true | exact (h _ hv).elim

def Editor.wholeCall (editor : Editor σ) (c : Call) : StateM σ Call := do
  editor.visit (.call c)
  let receiver ← editor.exprOption c.receiver
  let args ← editor.exprList c.args
  editor.call { c with receiver, args }

theorem Editor.expr_call_eq (editor : Editor σ) (c : Call) :
    editor.expr (.call c) = (do
      editor.visit (.expr (.call c))
      let c ← editor.wholeCall c
      return .call c) := by
  rw [Editor.expr_call]
  rfl

/-- The nodes that walks come by. A call is a node of its own, below the expression that it is. -/
inductive TreeNode where
  | type (decl : TypeDecl) (site : TypeSite)
  | anonymous (head : ClassHead) (members : List Member)
  | member (member : Member)
  | block (block : Block)
  | stmt (stmt : Stmt)
  | expr (expr : Expr)
  | call (call : Call)

namespace TreeNode

def children : TreeNode → List TreeNode
  | .type (.classDecl _ members) _ => members.map .member
  | .type (.interfaceDecl _ members) _ => members.map .member
  | .type (.enumDecl _ constants members) _ =>
    constants.flatMap (fun c => c.args.map .expr) ++ members.map .member
  | .anonymous _ members => members.map .member
  | .member (.field _ init) => init.toList.map .expr
  | .member (.method m) => m.body.toList.map .block
  | .member (.constructorDecl _ body) => [.block body]
  | .member (.initializer _ body _) => [.block body]
  | .member (.typeDecl d) => [.type d .inType]
  | .block b => b.stmts.map .stmt
  | .stmt (.expression e _) => [.expr e]
  | .stmt (.variables _ _ declared _) => declared.flatMap fun d => d.init.toList.map .expr
  | .stmt (.typeDecl d) => [.type d .inBlock]
  | .stmt (.ifElse test yes no _) => [.expr test, .stmt yes] ++ no.toList.map .stmt
  | .stmt (.whileLoop test body _) => [.expr test, .stmt body]
  | .stmt (.forEach _ _ iterable body _) => [.expr iterable, .stmt body]
  | .stmt (.returns value _) => value.toList.map .expr
  | .stmt (.throws value _) => [.expr value]
  | .stmt (.block b) => [.block b]
  | .stmt .empty => []
  | .expr (.literal _ _) => []
  | .expr (.ident _) => []
  | .expr (.binary _ left right _) => [.expr left, .expr right]
  | .expr (.assign target value _) => [.expr target, .expr value]
  | .expr (.call c) => [.call c]
  | .expr (.field target _ _) => [.expr target]
  | .expr (.cast _ operand _) => [.expr operand]
  | .expr (.conditional test yes no _) => [.expr test, .expr yes, .expr no]
  | .expr (.new _ args _) => args.map .expr
  | .expr (.newAnonymous _ args head members _) => args.map .expr ++ [.anonymous head members]
  | .expr (.paren inner) => [.expr inner]
  | .call c => c.receiver.toList.map .expr ++ c.args.map .expr

def enter : TreeNode → Visit
  | .type d site => .enterType d site
  | .anonymous head ms => .enterAnonymous head ms
  | .member m => .member m
  | .block b => .block b
  | .stmt s => .stmt s
  | .expr e => .expr e
  | .call c => .call c

def leave : TreeNode → List Visit
  | .type d _ => [.leaveType d]
  | .anonymous head ms => [.leaveAnonymous head ms]
  | _ => []

/-- What the reading walk comes by from the time it enters a node until it is through with it. -/
def visits : TreeNode → List Visit
  | .type d site => d.visits site
  | .anonymous head ms =>
    .enterAnonymous head ms :: (Member.visitsList ms ++ [.leaveAnonymous head ms])
  | .member m => m.visits
  | .block b => b.visits
  | .stmt s => s.visits
  | .expr e => e.visits
  | .call c => .call c :: (Expr.visitsOption c.receiver ++ Expr.visitsList c.args)

/-- What the editing walk does from the time it enters a node until it is through with it. -/
def edit (editor : Editor σ) : TreeNode → StateM σ TreeNode
  | .type d site => do return .type (← editor.typeDecl site d) site
  | .anonymous head ms => do return .anonymous head (← editor.anonymous head ms)
  | .member m => do return .member (← editor.member m)
  | .block b => do return .block (← editor.block b)
  | .stmt s => do return .stmt (← editor.stmt s)
  | .expr e => do return .expr (← editor.expr e)
  | .call c => do return .call (← editor.wholeCall c)

end TreeNode

def Visit.node? : Visit → Option TreeNode
  | .enterType d site => some (.type d site)
  | .enterAnonymous head ms => some (.anonymous head ms)
  | .member m => some (.member m)
  | .block b => some (.block b)
  | .stmt s => some (.stmt s)
  | .expr e => some (.expr e)
  | .call c => some (.call c)
  | _ => none

theorem TreeNode.node?_enter (n : TreeNode) : n.enter.node? = some n := by
  cases n <;> rfl

theorem TreeNode.filterMap_leave (n : TreeNode) : n.leave.filterMap Visit.node? = [] := by
  cases n <;> rfl

/-- Visits that go through some nodes one after the other: each is entered, then what is right below
it is gone through, and then it is left. -/
inductive Traversal : List TreeNode → List Visit → Prop where
  | nil : Traversal [] []
  | cons {n : TreeNode} {rest : List TreeNode} {inner later : List Visit} :
    Traversal n.children inner → Traversal rest later →
      Traversal (n :: rest) (n.enter :: (inner ++ (n.leave ++ later)))

theorem Traversal.append {ns ms : List TreeNode} {vs ws : List Visit} (h : Traversal ns vs)
    (k : Traversal ms ws) : Traversal (ns ++ ms) (vs ++ ws) := by
  induction h with
  | nil => exact k
  | cons hinner _ _ ih =>
    rw [List.cons_append, List.cons_append, List.append_assoc, List.append_assoc]
    exact .cons hinner ih

/-- The reading walk goes through some nodes, apart from visits that editors are not told of. -/
def Reads (ns : List TreeNode) (vs : List Visit) : Prop := Traversal ns (told vs)

namespace Reads

variable {ns ms : List TreeNode} {vs ws : List Visit} {n : TreeNode}

theorem nil : Reads [] [] := Traversal.nil

theorem append (h : Reads ns vs) (k : Reads ms ws) : Reads (ns ++ ms) (vs ++ ws) := by
  unfold Reads
  rw [told_append]
  exact Traversal.append h k

theorem skip {refs : List Visit} (hrefs : ∀ v ∈ refs, v.Unannounced) (h : Reads ns vs) :
    Reads ns (refs ++ vs) := by
  unfold Reads
  rw [told_append, told_of_unannounced hrefs]
  exact h

theorem skipType {type : TypeRef} (h : Reads ns vs) : Reads ns (.typeRef type :: vs) := h

theorem enclosed (h : Reads n.children vs) : Reads [n] (n.enter :: (vs ++ n.leave)) := by
  have hleave : told n.leave = n.leave := by cases n <;> rfl
  have henter : told (n.enter :: (vs ++ n.leave)) = n.enter :: (told vs ++ n.leave) := by
    have hcons : told (n.enter :: (vs ++ n.leave)) = n.enter :: told (vs ++ n.leave) := by
      cases n <;> rfl
    rw [hcons, told_append, hleave]
  have hall := Traversal.cons h Traversal.nil
  rw [List.append_nil, ← henter] at hall
  exact hall

theorem node (h : Reads n.children vs) (hleave : n.leave = [] := by rfl) :
    Reads [n] (n.enter :: vs) := by
  have hall := enclosed h
  rwa [hleave, List.append_nil] at hall

end Reads

mutual

theorem Expr.reads : ∀ e : Expr, Reads [.expr e] e.visits
  | .literal value span => by
    rw [Expr.visits]
    exact .node .nil
  | .ident name => by
    rw [Expr.visits]
    exact .node .nil
  | .binary op left right span => by
    rw [Expr.visits]
    exact .node (left.reads.append right.reads)
  | .assign target value span => by
    rw [Expr.visits]
    exact .node (target.reads.append value.reads)
  | .call ⟨id, receiver, name, args, method, span⟩ => by
    rw [Expr.visits]
    exact .node (.node ((Expr.readsOption receiver).append (Expr.readsList args)))
  | .field target name span => by
    rw [Expr.visits]
    exact .node target.reads
  | .cast type operand span => by
    rw [Expr.visits]
    exact .node operand.reads.skipType
  | .conditional test yes no span => by
    rw [Expr.visits]
    exact .node ((test.reads.append yes.reads).append no.reads)
  | .new type args span => by
    rw [Expr.visits]
    exact .node ((Expr.readsList args).skipType)
  | .newAnonymous type args head members span => by
    rw [Expr.visits]
    exact .node (.skipType ((Expr.readsList args).append (.enclosed (Member.readsList members))))
  | .paren inner => by
    rw [Expr.visits]
    exact .node inner.reads

theorem Expr.readsOption : ∀ e : Option Expr, Reads (e.toList.map .expr) (Expr.visitsOption e)
  | none => by rw [Expr.visitsOption]; exact .nil
  | some e => by rw [Expr.visitsOption]; exact e.reads

theorem Expr.readsList : ∀ es : List Expr, Reads (es.map .expr) (Expr.visitsList es)
  | [] => by rw [Expr.visitsList]; exact .nil
  | e :: es => by rw [Expr.visitsList]; exact e.reads.append (Expr.readsList es)

theorem Stmt.reads : ∀ s : Stmt, Reads [.stmt s] s.visits
  | .expression value span => by
    rw [Stmt.visits]
    exact .node value.reads
  | .variables mods type declared span => by
    rw [Stmt.visits]
    exact .node ((Declarator.readsList declared).skipType)
  | .typeDecl decl => by
    rw [Stmt.visits]
    exact .node (decl.reads .inBlock)
  | .ifElse test yes no span => by
    rw [Stmt.visits]
    exact .node ((test.reads.append yes.reads).append (Stmt.readsOption no))
  | .whileLoop test body span => by
    rw [Stmt.visits]
    exact .node (test.reads.append body.reads)
  | .forEach type name iterable body span => by
    rw [Stmt.visits]
    exact .node ((iterable.reads.append body.reads).skipType)
  | .returns value span => by
    rw [Stmt.visits]
    exact .node (Expr.readsOption value)
  | .throws value span => by
    rw [Stmt.visits]
    exact .node value.reads
  | .block body => by
    rw [Stmt.visits]
    exact .node body.reads
  | .empty => by
    rw [Stmt.visits]
    exact .node .nil

theorem Stmt.readsOption : ∀ s : Option Stmt, Reads (s.toList.map .stmt) (Stmt.visitsOption s)
  | none => by rw [Stmt.visitsOption]; exact .nil
  | some s => by rw [Stmt.visitsOption]; exact s.reads

theorem Stmt.readsList : ∀ ss : List Stmt, Reads (ss.map .stmt) (Stmt.visitsList ss)
  | [] => by rw [Stmt.visitsList]; exact .nil
  | s :: ss => by rw [Stmt.visitsList]; exact s.reads.append (Stmt.readsList ss)

theorem Declarator.readsList : ∀ ds : List Declarator,
    Reads (ds.flatMap fun d => d.init.toList.map .expr) (Declarator.visitsList ds)
  | [] => by rw [Declarator.visitsList]; exact .nil
  | ⟨_, init, _⟩ :: ds => by
    rw [Declarator.visitsList]
    exact (Expr.readsOption init).append (Declarator.readsList ds)

theorem Block.reads : ∀ b : Block, Reads [.block b] b.visits
  | ⟨stmts, span⟩ => by
    rw [Block.visits]
    exact .node (Stmt.readsList stmts)

theorem Block.readsOption : ∀ b : Option Block, Reads (b.toList.map .block) (Block.visitsOption b)
  | none => by rw [Block.visitsOption]; exact .nil
  | some b => by rw [Block.visitsOption]; exact b.reads

theorem Member.reads : ∀ m : Member, Reads [.member m] m.visits
  | .field head init => by
    rw [Member.visits]
    exact .node ((Expr.readsOption init).skipType)
  | .method ⟨head, body⟩ => by
    rw [Member.visits]
    exact .node ((Block.readsOption body).skip head.unannounced)
  | .constructorDecl head body => by
    rw [Member.visits]
    exact .node (body.reads.skip (unannounced_parameters _))
  | .initializer isStatic body span => by
    rw [Member.visits]
    exact .node body.reads
  | .typeDecl decl => by
    rw [Member.visits]
    exact .node (decl.reads .inType)

theorem Member.readsList : ∀ ms : List Member, Reads (ms.map .member) (Member.visitsList ms)
  | [] => by rw [Member.visitsList]; exact .nil
  | m :: ms => by rw [Member.visitsList]; exact m.reads.append (Member.readsList ms)

theorem EnumConstant.readsList : ∀ cs : List EnumConstant,
    Reads (cs.flatMap fun c => c.args.map .expr) (EnumConstant.visitsList cs)
  | [] => by rw [EnumConstant.visitsList]; exact .nil
  | ⟨_, args, _⟩ :: cs => by
    rw [EnumConstant.visitsList]
    exact (Expr.readsList args).append (EnumConstant.readsList cs)

theorem TypeDecl.reads (site : TypeSite) : ∀ d : TypeDecl, Reads [.type d site] (d.visits site)
  | .classDecl head members => by
    rw [TypeDecl.visits]
    exact .enclosed ((Member.readsList members).skip head.unannounced)
  | .interfaceDecl head members => by
    rw [TypeDecl.visits]
    exact .enclosed ((Member.readsList members).skip head.unannounced)
  | .enumDecl head constants members => by
    rw [TypeDecl.visits, List.append_assoc head.visits]
    exact .enclosed (((EnumConstant.readsList constants).append (Member.readsList members)).skip
      head.unannounced)

end

theorem TreeNode.reads : ∀ n : TreeNode, Reads [n] n.visits
  | .type d site => d.reads site
  | .anonymous _ ms => .enclosed (Member.readsList ms)
  | .member m => m.reads
  | .block b => b.reads
  | .stmt s => s.reads
  | .expr e => e.reads
  | .call c => .node ((Expr.readsOption c.receiver).append (Expr.readsList c.args))

def CompilationUnit.roots (u : CompilationUnit) : List TreeNode := u.types.map (.type · .topLevel)

theorem CompilationUnit.reads (u : CompilationUnit) : Reads u.roots (typesVisits u.types) := by
  unfold roots typesVisits
  induction u.types with
  | nil => exact .nil
  | cons d ds ih =>
    rw [List.map_cons, List.flatMap_cons]
    exact (d.reads .topLevel).append ih

/-- The node at an address: the number of a root, then the number of a child of that root, and so
on. -/
def nodeAt (roots : List TreeNode) : List Nat → Option TreeNode
  | [] => none
  | [i] => roots[i]?
  | i :: j :: below => roots[i]?.bind fun n => nodeAt n.children (j :: below)

/-- Each node below some roots is entered once. The order is that of the addresses, so a node comes
before its children and after everything that stands to the left of it. -/
def EntersOnce (roots : List TreeNode) (vs : List Visit) : Prop :=
  ∃ addresses : List (List Nat), addresses.Pairwise (· < ·) ∧
    (∀ address, address ∈ addresses ↔ (nodeAt roots address).isSome = true) ∧
    addresses.map (nodeAt roots) = (vs.filterMap Visit.node?).map some

section Addresses

variable {n : TreeNode} {rest : List TreeNode} {below beside : List (List Nat)}

/-- The same place, if one more root is put before the others. -/
def shiftAddress : List Nat → List Nat
  | [] => []
  | i :: inner => (i + 1) :: inner

def joinAddresses (below beside : List (List Nat)) : List (List Nat) :=
  [0] :: (below.map (0 :: ·) ++ beside.map shiftAddress)

theorem nodeAt_below {address : List Nat} (h : address ≠ []) :
    nodeAt (n :: rest) (0 :: address) = nodeAt n.children address := by
  cases address with
  | nil => exact absurd rfl h
  | cons j inner => rfl

theorem nodeAt_shiftAddress (address : List Nat) :
    nodeAt (n :: rest) (shiftAddress address) = nodeAt rest address := by
  cases address with
  | nil => rfl
  | cons i inner => cases inner <;> rfl

theorem not_isSome_nodeAt_nil (roots : List TreeNode) : ¬ (nodeAt roots []).isSome = true :=
  Bool.false_ne_true

theorem shiftAddress_lt {a b : List Nat} (h : a < b) : shiftAddress a < shiftAddress b := by
  cases a with
  | nil =>
    cases b with
    | nil => exact absurd h (by simp)
    | cons j inner => exact List.nil_lt_cons _ _
  | cons i outer =>
    cases b with
    | nil => exact absurd h (by simp)
    | cons j inner =>
      rw [shiftAddress, shiftAddress, List.cons_lt_cons_iff]
      rcases List.cons_lt_cons_iff.mp h with hlt | ⟨rfl, hlt⟩
      · exact .inl (Nat.succ_lt_succ hlt)
      · exact .inr ⟨rfl, hlt⟩

theorem zero_cons_lt_shiftAddress (a : List Nat) {b : List Nat} (h : b ≠ []) :
    0 :: a < shiftAddress b := by
  obtain ⟨i, inner, rfl⟩ := List.exists_cons_of_ne_nil h
  exact List.cons_lt_cons_iff.mpr (.inl (Nat.succ_pos i))

theorem pairwise_joinAddresses (hbelow : below.Pairwise (· < ·)) (hbeside : beside.Pairwise (· < ·))
    (hne : ∀ a ∈ below, a ≠ []) (hne' : ∀ a ∈ beside, a ≠ []) :
    (joinAddresses below beside).Pairwise (· < ·) := by
  simp only [joinAddresses, List.pairwise_cons, List.pairwise_append, List.pairwise_map,
    List.mem_append, List.mem_map]
  refine ⟨?_, ?_, ?_, ?_⟩
  · rintro _ (⟨a, ha, rfl⟩ | ⟨b, hb, rfl⟩)
    · obtain ⟨i, inner, rfl⟩ := List.exists_cons_of_ne_nil (hne a ha)
      simp
    · exact zero_cons_lt_shiftAddress [] (hne' b hb)
  · exact hbelow.imp fun hlt => by simpa using hlt
  · exact hbeside.imp shiftAddress_lt
  · rintro _ ⟨a, _, rfl⟩ _ ⟨b, hb, rfl⟩
    exact zero_cons_lt_shiftAddress a (hne' b hb)

theorem mem_joinAddresses (hbelow : ∀ a, a ∈ below ↔ (nodeAt n.children a).isSome = true)
    (hbeside : ∀ a, a ∈ beside ↔ (nodeAt rest a).isSome = true) (address : List Nat) :
    address ∈ joinAddresses below beside ↔ (nodeAt (n :: rest) address).isSome = true := by
  have hnil : [] ∉ beside := mt (hbeside []).mp (not_isSome_nodeAt_nil rest)
  simp only [joinAddresses, List.mem_cons, List.mem_append, List.mem_map]
  -- the first number of an address tells which of the three parts it comes from
  rcases address with _ | ⟨_ | i, a⟩
  · refine iff_of_false ?_ (not_isSome_nodeAt_nil _)
    rintro (h | ⟨a, _, h⟩ | ⟨b, hb, h⟩)
    · cases h
    · cases h
    · cases b with
      | nil => exact hnil hb
      | cons i inner => cases h
  · by_cases ha : a = []
    · subst ha
      exact iff_of_true (.inl rfl) rfl
    · rw [nodeAt_below ha, ← hbelow]
      constructor
      · rintro (h | ⟨a', ha', h⟩ | ⟨b, hb, h⟩)
        · exact absurd (List.cons.inj h).2 ha
        · rwa [← (List.cons.inj h).2]
        · cases b <;> cases h
      · intro hmem
        exact .inr (.inl ⟨a, hmem, rfl⟩)
  · have hshift : nodeAt (n :: rest) ((i + 1) :: a) = nodeAt rest (i :: a) :=
      nodeAt_shiftAddress (i :: a)
    rw [hshift, ← hbeside]
    constructor
    · rintro (h | ⟨a', _, h⟩ | ⟨b, hb, h⟩)
      · cases h
      · cases h
      · cases b with
        | nil => cases h
        | cons j inner =>
          cases h
          exact hb
    · intro hmem
      exact .inr (.inr ⟨i :: a, hmem, rfl⟩)

theorem map_nodeAt_joinAddresses (hne : ∀ a ∈ below, a ≠ []) :
    (joinAddresses below beside).map (nodeAt (n :: rest)) =
      some n :: (below.map (nodeAt n.children) ++ beside.map (nodeAt rest)) := by
  have hfirst : nodeAt (n :: rest) [0] = some n := rfl
  have hbelow : (below.map (0 :: ·)).map (nodeAt (n :: rest)) = below.map (nodeAt n.children) := by
    rw [List.map_map]
    exact List.map_congr_left fun a ha => nodeAt_below (hne a ha)
  have hbeside : (beside.map shiftAddress).map (nodeAt (n :: rest)) =
      beside.map (nodeAt rest) := by
    rw [List.map_map]
    exact List.map_congr_left fun a _ => nodeAt_shiftAddress a
  rw [joinAddresses, List.map_cons, List.map_append, hfirst, hbelow, hbeside]

theorem ne_nil_of_nodeAt {roots : List TreeNode} {addresses : List (List Nat)}
    (h : ∀ a, a ∈ addresses ↔ (nodeAt roots a).isSome = true) : ∀ a ∈ addresses, a ≠ [] := by
  rintro _ ha rfl
  exact not_isSome_nodeAt_nil roots ((h []).mp ha)

end Addresses

theorem Traversal.entersOnce {ns : List TreeNode} {vs : List Visit} (h : Traversal ns vs) :
    EntersOnce ns vs := by
  induction h with
  | nil =>
    refine ⟨[], .nil, fun address => ?_, rfl⟩
    match address with
    | [] => simp [nodeAt]
    | [i] => simp [nodeAt]
    | i :: j :: inner => simp [nodeAt]
  | @cons n rest inner later _ _ ihinner ihlater =>
    obtain ⟨below, hbelow, hmem, hnodes⟩ := ihinner
    obtain ⟨beside, hbeside, hmem', hnodes'⟩ := ihlater
    have hne := ne_nil_of_nodeAt hmem
    refine ⟨joinAddresses below beside, ?_, mem_joinAddresses hmem hmem', ?_⟩
    · exact pairwise_joinAddresses hbelow hbeside hne (ne_nil_of_nodeAt hmem')
    · rw [map_nodeAt_joinAddresses hne, hnodes, hnodes', List.filterMap_cons_some n.node?_enter,
        List.filterMap_append, List.filterMap_append, n.filterMap_leave, List.nil_append,
        List.map_cons, List.map_append]

theorem Editor.tell_recorder (vs log : List Visit) :
    Editor.recorder.tell vs log = ((), log ++ vs) := by
  induction vs generalizing log with
  | nil => rw [List.append_nil]; rfl
  | cons v vs ih =>
    have hrest := ih (log ++ [v])
    rw [List.append_assoc, List.singleton_append] at hrest
    exact hrest

theorem Editor.recorder_wholeCall {c : Call}
    (hr : ∀ log, Editor.recorder.exprOption c.receiver log =
      (c.receiver, log ++ told (Expr.visitsOption c.receiver)))
    (ha : ∀ log, Editor.recorder.exprList c.args log =
      (c.args, log ++ told (Expr.visitsList c.args))) (log : List Visit) :
    Editor.recorder.wholeCall c log = (c, log ++ told (TreeNode.call c).visits) := by
  have hedit : Editor.recorder.wholeCall c log =
      ({ c with
          receiver := (Editor.recorder.exprOption c.receiver (log ++ [.call c])).1
          args := (Editor.recorder.exprList c.args
            (Editor.recorder.exprOption c.receiver (log ++ [.call c])).2).1 },
        (Editor.recorder.exprList c.args
          (Editor.recorder.exprOption c.receiver (log ++ [.call c])).2).2) := rfl
  have hvisits : told (TreeNode.call c).visits =
      .call c :: told (Expr.visitsOption c.receiver ++ Expr.visitsList c.args) := rfl
  rw [hedit, hr, ha, hvisits, told_append]
  obtain ⟨id, receiver, name, args, method, span⟩ := c
  simp

/-- The editor that writes down what it is told of changes nothing, and what it writes down about
any piece of a tree is what reading comes by in that piece. -/
theorem Editor.recorder_edit : Hereditary fun K _ a => ∀ log,
    K.edit Editor.recorder a log = (a, log ++ told (K.visits a)) where
  unit log := by
    have hnone : told (Kind.unit.visits ()) = [] := rfl
    rw [hnone, List.append_nil]
    rfl
  pair {_ _ K L p a b} _ ha hb log := by
    have hvisits : (K.prod L).visits (a, b) = K.visits a ++ L.visits b := rfl
    rw [Kind.edit_prod, ha, hb, hvisits, told_append, List.append_assoc]
  node {_ _ K L} build own refs {p a} n ha log := by
    have hedit : L.edit Editor.recorder (build a) log =
        (build (K.edit Editor.recorder a (Editor.recorder.tell (own a) log).2).1,
          (K.edit Editor.recorder a (Editor.recorder.tell (own a) log).2).2) := by
      rw [n.edit]
      rfl
    rw [hedit, Editor.tell_recorder, ha, n.visits, told_append, told_append,
      told_of_announced (n.announced a), told_of_unannounced n.unannounced, List.append_nil,
      List.append_assoc]
  call {p} c hr ha log := by
    have hcall := Editor.recorder_wholeCall hr ha (log ++ [.expr (.call c)])
    have hedit : Kind.expr.edit Editor.recorder (.call c) log =
        (.call (Editor.recorder.wholeCall c (log ++ [.expr (.call c)])).1,
          (Editor.recorder.wholeCall c (log ++ [.expr (.call c)])).2) := by
      have hexpr : Kind.expr.edit Editor.recorder (.call c) = Editor.recorder.expr (.call c) := rfl
      rw [hexpr, Editor.expr_call_eq]
      rfl
    have hvisits : told (Kind.expr.visits (.call c)) =
        .expr (.call c) :: told (TreeNode.call c).visits := by
      have hexpr : Kind.expr.visits (.call c) = (Expr.call c).visits := rfl
      rw [hexpr, Expr.visits_call]
      rfl
    rw [hedit, hcall, hvisits, List.append_assoc, List.singleton_append]
  anonymous {p head ms} hms log := by
    have hms : ∀ log, Editor.recorder.memberList ms log =
      (ms, log ++ told (Member.visitsList ms)) := hms
    have hedit : (Kind.anonymous head).edit Editor.recorder ms log =
        ((Editor.recorder.memberList ms (log ++ [.enterAnonymous head ms])).1,
          (Editor.recorder.memberList ms (log ++ [.enterAnonymous head ms])).2 ++
            [.leaveAnonymous head
              (Editor.recorder.memberList ms (log ++ [.enterAnonymous head ms])).1]) := rfl
    have hvisits : told ((Kind.anonymous head).visits ms) =
      .enterAnonymous head ms :: told (Member.visitsList ms ++ [.leaveAnonymous head ms]) := rfl
    have hleave : told [.leaveAnonymous head ms] = [.leaveAnonymous head ms] := rfl
    rw [hedit, hms, hvisits, told_append, hleave]
    simp
  type {p site d} hd log := by
    have hd : ∀ log, Editor.recorder.body d log = (d, log ++ told d.innerVisits) := hd
    have hedit : (Kind.typeDecl site).edit Editor.recorder d log =
        ((Editor.recorder.body d (log ++ [.enterType d site])).1,
          (Editor.recorder.body d (log ++ [.enterType d site])).2 ++
            [.leaveType (Editor.recorder.body d (log ++ [.enterType d site])).1]) := by
      have htype : (Kind.typeDecl site).edit Editor.recorder d = Editor.recorder.typeDecl site d :=
        rfl
      rw [htype, Editor.typeDecl_eq]
      rfl
    have hvisits : told ((Kind.typeDecl site).visits d) =
        .enterType d site :: told (d.innerVisits ++ [.leaveType d]) := by
      have htype : (Kind.typeDecl site).visits d = d.visits site := rfl
      rw [htype, TypeDecl.visits_eq]
      rfl
    have hleave : told [.leaveType d] = [.leaveType d] := rfl
    rw [hedit, hd, hvisits, told_append, hleave]
    simp

theorem TreeNode.edit_recorder (n : TreeNode) (log : List Visit) :
    n.edit Editor.recorder log = (n, log ++ told n.visits) := by
  have hpieces := Editor.recorder_edit
  have ofEdit {α : Type} {m : StateM (List Visit) α} {a : α} {vs : List Visit}
      (build : α → TreeNode) (h : m log = (a, log ++ told vs)) :
      (do return build (← m)) log = (build a, log ++ told vs) :=
    congrArg (fun x : α × List Visit => (build x.1, x.2)) h
  cases n with
  | type d site => exact ofEdit (.type · site) (hpieces.typeDecl site d [] log)
  | anonymous head ms =>
    have hmembers := hpieces.memberList ms [.anonymous head ms]
    exact ofEdit (.anonymous head) (hpieces.anonymous (p := []) hmembers log)
  | member m => exact ofEdit .member (hpieces.member m [] log)
  | block b => exact ofEdit .block (hpieces.block b [] log)
  | stmt s => exact ofEdit .stmt (hpieces.stmt s [] log)
  | expr e => exact ofEdit .expr (hpieces.expr e [] log)
  | call c =>
    exact ofEdit .call (Editor.recorder_wholeCall (hpieces.exprOption c.receiver [])
      (hpieces.exprList c.args []) log)

/-- What it means that reading and editing agree on a unit. -/
structure CompilationUnit.WalksAgree (u : CompilationUnit) : Prop where
  /-- Both come by the same nodes in the same order, and enter and leave at the same time. -/
  recorded : Editor.recorder.types u.types [] = (u.types, told (typesVisits u.types))
  /-- The same holds for each single node, from its beginning to its end. So the nodes that one walk
  comes by inside a node are those that the other one comes by inside it. -/
  nested : ∀ n : TreeNode, (∀ log, n.edit Editor.recorder log = (n, log ++ told n.visits)) ∧
    Traversal [n] (told n.visits)
  traversal : Traversal u.roots (told (typesVisits u.types))
  once : EntersOnce u.roots (told (typesVisits u.types))
  idle : ∀ (σ : Type) (s : σ), Editor.types {} u.types s = (u.types, s)

theorem walks_agree (u : CompilationUnit) : u.WalksAgree where
  recorded := Editor.recorder_edit.types [] u.types []
  nested n := ⟨n.edit_recorder, n.reads⟩
  traversal := u.reads
  once := Traversal.entersOnce u.reads
  idle σ s := by
    have hcalls : ∀ c ∈ callsOf (typesVisits u.types), ∀ s : σ,
      (pure c : StateM σ Call) s = (c, s) := fun _ _ _ => rfl
    exact Editor.edit_of_idle.types [] u.types hcalls s

end FactoryLowering
