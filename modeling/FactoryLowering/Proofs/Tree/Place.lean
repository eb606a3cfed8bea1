import FactoryLowering.Tree.Visit

/-! Places in a tree: every visit of the reading walk together with the types and anonymous class
bodies around it. Leaving undoes entering, so a subtree's visits can be located by themselves,
whatever comes after them. -/
namespace FactoryLowering

/-- What a place can stand in: a type declaration or the body of an anonymous class. -/
inductive Enclosure where
  | type (decl : TypeDecl) (site : TypeSite)
  | anonymous (head : ClassHead) (members : List Member)

/-- The enclosures of a place, the innermost first. -/
abbrev Path := List Enclosure

structure Place where
  path : Path
  visit : Visit

def Visit.pathAfter (path : Path) : Visit → Path
  | .enterType decl site => .type decl site :: path
  | .enterAnonymous head members => .anonymous head members :: path
  | .leaveType _ => path.tail
  | .leaveAnonymous _ _ => path.tail
  | _ => path

def locate (path : Path) : List Visit → List Place
  | [] => []
  | visit :: rest => ⟨path, visit⟩ :: locate (visit.pathAfter path) rest

theorem exists_place_of_mem {v : Visit} {vs : List Visit} (h : v ∈ vs) (p : Path) :
    ∃ q, ⟨q, v⟩ ∈ locate p vs := by
  induction vs generalizing p with
  | nil => cases h
  | cons w vs ih =>
    rcases List.mem_cons.mp h with rfl | h
    · exact ⟨p, List.mem_cons_self⟩
    · obtain ⟨q, hq⟩ := ih h (w.pathAfter p)
      exact ⟨q, List.mem_cons_of_mem _ hq⟩

def typesPlaces (decls : List TypeDecl) : List Place := locate [] (typesVisits decls)

def TypeDecl.innerVisits : TypeDecl → List Visit
  | .classDecl head members => head.visits ++ Member.visitsList members
  | .interfaceDecl head members => head.visits ++ Member.visitsList members
  | .enumDecl head constants members =>
    head.visits ++ EnumConstant.visitsList constants ++ Member.visitsList members

theorem TypeDecl.visits_eq (site : TypeSite) (d : TypeDecl) :
    d.visits site = .enterType d site :: (d.innerVisits ++ [.leaveType d]) := by
  cases d <;> simp [TypeDecl.visits, TypeDecl.innerVisits]

/-- Visits that stay at their level and that an editor is told of, calls apart. -/
def Visit.Announced : Visit → Prop
  | .member _ | .block _ | .stmt _ | .expr _ => True
  | _ => False

/-- Visits that only the reading walk makes. -/
def Visit.Unannounced : Visit → Prop
  | .identifier _ | .typeRef _ => True
  | _ => False

def Visit.Quiet (v : Visit) : Prop := v.Announced ∨ v.Unannounced

theorem Visit.Unannounced.pathAfter {v : Visit} {path : Path} (h : v.Unannounced) :
    v.pathAfter path = path := by
  cases v <;> first | rfl | exact h.elim

theorem unannounced_map (types : List TypeRef) :
    ∀ v ∈ types.map Visit.typeRef, v.Unannounced := by
  intro v hv
  obtain ⟨t, _, rfl⟩ := List.mem_map.mp hv
  trivial

theorem unannounced_bounds (params : List TypeParam) :
    ∀ v ∈ boundVisits params, v.Unannounced := by
  intro v hv
  obtain ⟨p, _, hv⟩ := List.mem_flatMap.mp hv
  exact unannounced_map p.bounds v hv

theorem unannounced_parameters (params : List Parameter) :
    ∀ v ∈ parameterVisits params, v.Unannounced := by
  intro v hv
  obtain ⟨t, _, rfl⟩ := List.mem_map.mp hv
  trivial

theorem ClassHead.unannounced (head : ClassHead) : ∀ v ∈ head.visits, v.Unannounced := by
  simp only [ClassHead.visits, List.forall_mem_append]
  exact ⟨⟨unannounced_bounds _, unannounced_map _⟩, unannounced_map _⟩

theorem InterfaceHead.unannounced (head : InterfaceHead) : ∀ v ∈ head.visits, v.Unannounced := by
  simp only [InterfaceHead.visits, List.forall_mem_append]
  exact ⟨unannounced_bounds _, unannounced_map _⟩

theorem EnumHead.unannounced (head : EnumHead) : ∀ v ∈ head.visits, v.Unannounced :=
  unannounced_map _

theorem MethodHead.unannounced (head : MethodHead) : ∀ v ∈ head.visits, v.Unannounced := by
  simp only [MethodHead.visits, List.forall_mem_append]
  exact ⟨⟨unannounced_bounds _, unannounced_map _⟩, unannounced_parameters _⟩

/-- Visits that end at the level at which they began and never come out above it. -/
structure Level (vs : List Visit) : Prop where
  split : ∀ path rest, locate path (vs ++ rest) = locate path vs ++ locate path rest
  within : ∀ path, ∀ x ∈ locate path vs, path <:+ x.path

namespace Level

theorem nil : Level [] := ⟨fun _ _ => rfl, fun _ _ hx => (nomatch hx)⟩

theorem cons {v : Visit} {vs : List Visit} (hv : ∀ path, v.pathAfter path = path)
    (h : Level vs) : Level (v :: vs) := by
  constructor
  · intro path rest
    simp only [List.cons_append, locate, hv]
    rw [h.split path rest]
  · intro path x hx
    rw [locate, hv] at hx
    rcases List.mem_cons.mp hx with rfl | hx
    · exact List.suffix_refl _
    · exact h.within path x hx

theorem append {vs ws : List Visit} (hv : Level vs) (hw : Level ws) : Level (vs ++ ws) := by
  constructor
  · intro path rest
    rw [List.append_assoc, hv.split path (ws ++ rest), hw.split path rest, hv.split path ws,
      List.append_assoc]
  · intro path x hx
    rw [hv.split path ws] at hx
    exact (List.mem_append.mp hx).elim (hv.within path x) (hw.within path x)

theorem of_unannounced {vs : List Visit} (h : ∀ v ∈ vs, v.Unannounced) : Level vs := by
  induction vs with
  | nil => exact nil
  | cons v vs ih =>
    have hv := h v List.mem_cons_self
    exact cons (fun _ => hv.pathAfter) (ih fun w hw => h w (List.mem_cons_of_mem v hw))

theorem enclosed {v w : Visit} {e : Enclosure} {vs : List Visit}
    (hv : ∀ path, v.pathAfter path = e :: path) (hw : ∀ path, w.pathAfter path = path.tail)
    (h : Level vs) : Level (v :: (vs ++ [w])) := by
  constructor
  · intro path rest
    simp only [List.cons_append, List.append_assoc, locate, hv, h.split (e :: path) _, hw,
      List.tail_cons, List.nil_append]
  · intro path x hx
    rw [locate, hv, h.split (e :: path) [w]] at hx
    rcases List.mem_cons.mp hx with rfl | hx
    · exact List.suffix_refl _
    · rcases List.mem_append.mp hx with hx | hx
      · exact (List.suffix_cons e path).trans (h.within (e :: path) x hx)
      · obtain rfl := List.mem_singleton.mp hx
        exact List.suffix_cons e path

end Level

theorem Visit.Quiet.pathAfter {v : Visit} (h : v.Quiet) (p : Path) : v.pathAfter p = p := by
  cases v <;> first | rfl | exact h.elim False.elim False.elim

theorem Level.quiet {vs : List Visit} (h : ∀ v ∈ vs, v.Quiet) : Level vs := by
  induction vs with
  | nil => exact .nil
  | cons v vs ih =>
    obtain ⟨hv, hvs⟩ := List.forall_mem_cons.mp h
    exact .cons (fun path => hv.pathAfter path) (ih hvs)

@[simp] theorem locate_append {vs : List Visit} (h : Level vs) (path : Path) (ws : List Visit) :
    locate path (vs ++ ws) = locate path vs ++ locate path ws := h.split path ws

@[simp] theorem parameterVisits_level (params : List Parameter) : Level (parameterVisits params) :=
  .of_unannounced (unannounced_parameters params)

@[simp] theorem ClassHead.visits_level (head : ClassHead) : Level head.visits :=
  .of_unannounced head.unannounced

@[simp] theorem InterfaceHead.visits_level (head : InterfaceHead) : Level head.visits :=
  .of_unannounced head.unannounced

@[simp] theorem EnumHead.visits_level (head : EnumHead) : Level head.visits :=
  .of_unannounced head.unannounced

@[simp] theorem MethodHead.visits_level (head : MethodHead) : Level head.visits :=
  .of_unannounced head.unannounced

mutual

@[simp] theorem Expr.visits_level : ∀ e : Expr, Level e.visits
  | .literal value span => by
    rw [Expr.visits]
    exact .cons (fun _ => rfl) .nil
  | .ident name => by
    rw [Expr.visits]
    exact .cons (fun _ => rfl) (.cons (fun _ => rfl) .nil)
  | .binary op left right span => by
    rw [Expr.visits]
    exact .cons (fun _ => rfl) (left.visits_level.append right.visits_level)
  | .assign target value span => by
    rw [Expr.visits]
    exact .cons (fun _ => rfl) (target.visits_level.append value.visits_level)
  | .call ⟨id, receiver, name, args, method, span⟩ => by
    rw [Expr.visits]
    exact .cons (fun _ => rfl) (.cons (fun _ => rfl)
      ((Expr.visitsOption_level receiver).append (Expr.visitsList_level args)))
  | .field target name span => by
    rw [Expr.visits]
    exact .cons (fun _ => rfl) target.visits_level
  | .cast type operand span => by
    rw [Expr.visits]
    exact .cons (fun _ => rfl) (.cons (fun _ => rfl) operand.visits_level)
  | .conditional test yes no span => by
    rw [Expr.visits]
    exact .cons (fun _ => rfl) ((test.visits_level.append yes.visits_level).append no.visits_level)
  | .new type args span => by
    rw [Expr.visits]
    exact .cons (fun _ => rfl) (.cons (fun _ => rfl) (Expr.visitsList_level args))
  | .newAnonymous type args head members span => by
    rw [Expr.visits]
    exact .cons (fun _ => rfl) (.cons (fun _ => rfl) ((Expr.visitsList_level args).append
      (.enclosed (fun _ => rfl) (fun _ => rfl) (Member.visitsList_level members))))
  | .paren inner => by
    rw [Expr.visits]
    exact .cons (fun _ => rfl) inner.visits_level

@[simp] theorem Expr.visitsOption_level : ∀ e : Option Expr, Level (Expr.visitsOption e)
  | none => by rw [Expr.visitsOption]; exact .nil
  | some e => by rw [Expr.visitsOption]; exact e.visits_level

@[simp] theorem Expr.visitsList_level : ∀ es : List Expr, Level (Expr.visitsList es)
  | [] => by rw [Expr.visitsList]; exact .nil
  | e :: es => by rw [Expr.visitsList]; exact e.visits_level.append (Expr.visitsList_level es)

@[simp] theorem Stmt.visits_level : ∀ s : Stmt, Level s.visits
  | .expression value span => by
    rw [Stmt.visits]
    exact .cons (fun _ => rfl) value.visits_level
  | .variables mods type declared span => by
    rw [Stmt.visits]
    exact .cons (fun _ => rfl) (.cons (fun _ => rfl) (Declarator.visitsList_level declared))
  | .typeDecl decl => by
    rw [Stmt.visits]
    exact .cons (fun _ => rfl) (decl.visits_level .inBlock)
  | .ifElse test yes no span => by
    rw [Stmt.visits]
    exact .cons (fun _ => rfl)
      ((test.visits_level.append yes.visits_level).append (Stmt.visitsOption_level no))
  | .whileLoop test body span => by
    rw [Stmt.visits]
    exact .cons (fun _ => rfl) (test.visits_level.append body.visits_level)
  | .forEach type name iterable body span => by
    rw [Stmt.visits]
    exact .cons (fun _ => rfl) (.cons (fun _ => rfl)
      (iterable.visits_level.append body.visits_level))
  | .returns value span => by
    rw [Stmt.visits]
    exact .cons (fun _ => rfl) (Expr.visitsOption_level value)
  | .throws value span => by
    rw [Stmt.visits]
    exact .cons (fun _ => rfl) value.visits_level
  | .block body => by
    rw [Stmt.visits]
    exact .cons (fun _ => rfl) body.visits_level
  | .empty => by
    rw [Stmt.visits]
    exact .cons (fun _ => rfl) .nil

@[simp] theorem Stmt.visitsOption_level : ∀ s : Option Stmt, Level (Stmt.visitsOption s)
  | none => by rw [Stmt.visitsOption]; exact .nil
  | some s => by rw [Stmt.visitsOption]; exact s.visits_level

@[simp] theorem Stmt.visitsList_level : ∀ ss : List Stmt, Level (Stmt.visitsList ss)
  | [] => by rw [Stmt.visitsList]; exact .nil
  | s :: ss => by rw [Stmt.visitsList]; exact s.visits_level.append (Stmt.visitsList_level ss)

@[simp] theorem Declarator.visitsList_level :
    ∀ ds : List Declarator, Level (Declarator.visitsList ds)
  | [] => by rw [Declarator.visitsList]; exact .nil
  | ⟨_, init, _⟩ :: ds => by
    rw [Declarator.visitsList]
    exact (Expr.visitsOption_level init).append (Declarator.visitsList_level ds)

@[simp] theorem Block.visits_level : ∀ b : Block, Level b.visits
  | ⟨stmts, span⟩ => by
    rw [Block.visits]
    exact .cons (fun _ => rfl) (Stmt.visitsList_level stmts)

@[simp] theorem Block.visitsOption_level : ∀ b : Option Block, Level (Block.visitsOption b)
  | none => by rw [Block.visitsOption]; exact .nil
  | some b => by rw [Block.visitsOption]; exact b.visits_level

@[simp] theorem Member.visits_level : ∀ m : Member, Level m.visits
  | .field head init => by
    rw [Member.visits]
    exact .cons (fun _ => rfl) (.cons (fun _ => rfl) (Expr.visitsOption_level init))
  | .method ⟨head, body⟩ => by
    rw [Member.visits]
    exact .cons (fun _ => rfl) (head.visits_level.append (Block.visitsOption_level body))
  | .constructorDecl head body => by
    rw [Member.visits]
    exact .cons (fun _ => rfl) ((parameterVisits_level _).append body.visits_level)
  | .initializer isStatic body span => by
    rw [Member.visits]
    exact .cons (fun _ => rfl) body.visits_level
  | .typeDecl decl => by
    rw [Member.visits]
    exact .cons (fun _ => rfl) (decl.visits_level .inType)

@[simp] theorem Member.visitsList_level : ∀ ms : List Member, Level (Member.visitsList ms)
  | [] => by rw [Member.visitsList]; exact .nil
  | m :: ms => by rw [Member.visitsList]; exact m.visits_level.append (Member.visitsList_level ms)

@[simp] theorem EnumConstant.visitsList_level :
    ∀ cs : List EnumConstant, Level (EnumConstant.visitsList cs)
  | [] => by rw [EnumConstant.visitsList]; exact .nil
  | ⟨_, args, _⟩ :: cs => by
    rw [EnumConstant.visitsList]
    exact (Expr.visitsList_level args).append (EnumConstant.visitsList_level cs)

@[simp] theorem TypeDecl.visits_level (site : TypeSite) : ∀ d : TypeDecl, Level (d.visits site)
  | .classDecl head members => by
    rw [TypeDecl.visits]
    exact .enclosed (fun _ => rfl) (fun _ => rfl)
      (head.visits_level.append (Member.visitsList_level members))
  | .interfaceDecl head members => by
    rw [TypeDecl.visits]
    exact .enclosed (fun _ => rfl) (fun _ => rfl)
      (head.visits_level.append (Member.visitsList_level members))
  | .enumDecl head constants members => by
    rw [TypeDecl.visits]
    exact .enclosed (fun _ => rfl) (fun _ => rfl)
      ((head.visits_level.append (EnumConstant.visitsList_level constants)).append
        (Member.visitsList_level members))

end

@[simp] theorem TypeDecl.innerVisits_level (d : TypeDecl) : Level d.innerVisits := by
  cases d <;> simp [TypeDecl.innerVisits, Level.append]

/-- The places of a type: it is entered where it stands, and what it holds stands in it. -/
theorem TypeDecl.locate_visits (path : Path) (site : TypeSite) (d : TypeDecl) :
    locate path (d.visits site) = ⟨path, .enterType d site⟩ ::
      (locate (.type d site :: path) d.innerVisits ++ [⟨.type d site :: path, .leaveType d⟩]) := by
  simp [TypeDecl.visits_eq, locate, Visit.pathAfter]

theorem locate_anonymous (path : Path) (head : ClassHead) (ms : List Member) :
    locate path (.enterAnonymous head ms :: (Member.visitsList ms ++ [.leaveAnonymous head ms])) =
      ⟨path, .enterAnonymous head ms⟩ :: (locate (.anonymous head ms :: path)
        (Member.visitsList ms) ++ [⟨.anonymous head ms :: path, .leaveAnonymous head ms⟩]) := by
  simp [locate, Visit.pathAfter]

end FactoryLowering
