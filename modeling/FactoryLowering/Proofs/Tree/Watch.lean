import FactoryLowering.Proofs.Tree.Traversal
import FactoryLowering.Proofs.Tree.Walk

/-! # Watching a walk

What an editor does is told by its hooks, and what its state is in between is lost when the walk is
over. A watched walk notes the state at each hook together with the path it is at. Watching changes
nothing: tree and state come out as they would without it. The paths that are noted depend on the
tree alone, so the notes of two editors on one tree can be laid side by side, and what an editor
keeps as an invariant holds of all of its notes.
-/
namespace FactoryLowering

variable {σ α β : Type}

/-- The state of an editor, the path that its walk is at, and the notes taken so far. -/
structure Watched (σ : Type) where
  state : σ
  path : Path := []
  notes : List (Path × σ) := []

def Watched.goTo (w : Watched σ) (path : Path) (s : σ) : Watched σ :=
  { state := s, path, notes := w.notes ++ [(path, s)] }

/-- The same editor, watched. A note is taken when it has entered or left something, when it was
told of something else, and when it is about to change a call. -/
def Editor.watched (editor : Editor σ) : Editor (Watched σ) where
  visit v w := ((), w.goTo (v.pathAfter w.path) (editor.visit v w.state).2)
  call c w := ((editor.call c w.state).1,
    { w.goTo w.path w.state with state := (editor.call c w.state).2 })
  leaveType d w := ((editor.leaveType d w.state).1,
    w.goTo w.path.tail (editor.leaveType d w.state).2)
  leaveAnonymous head ms w := ((), w.goTo w.path.tail (editor.leaveAnonymous head ms w.state).2)

/-- The paths of what is visited, each told from the inside of a node that is entered there and from
the outside of one that is left. -/
def positions (p : Path) (vs : List Visit) : List Path :=
  ((locate p vs).filter fun x => x.visit.isTold).map fun x => x.visit.pathAfter x.path

theorem positions_append {vs : List Visit} (h : Level vs) (p : Path) (ws : List Visit) :
    positions p (vs ++ ws) = positions p vs ++ positions p ws := by
  rw [positions, locate_append h, List.filter_append, List.map_append, positions, positions]

theorem positions_cons {v : Visit} (h : v.isTold = true) (p : Path) (vs : List Visit) :
    positions p (v :: vs) = v.pathAfter p :: positions (v.pathAfter p) vs := by
  simp only [positions, locate, List.filter_cons, h, if_true, List.map_cons]

theorem positions_announced {vs : List Visit} (h : ∀ v ∈ vs, v.Announced) (p : Path) :
    positions p vs = vs.map fun _ => p := by
  induction vs with
  | nil => rfl
  | cons v vs ih =>
    obtain ⟨hfirst, hrest⟩ := List.forall_mem_cons.mp h
    have htold : v.isTold = true := by
      cases v <;> first | rfl | exact hfirst.elim
    have hquiet : v.Quiet := .inl hfirst
    rw [positions_cons htold, hquiet.pathAfter, ih hrest, List.map_cons]

theorem positions_unannounced {vs : List Visit} (h : ∀ v ∈ vs, v.Unannounced) (p : Path) :
    positions p vs = [] := by
  induction vs with
  | nil => rfl
  | cons v vs ih =>
    obtain ⟨hfirst, hrest⟩ := List.forall_mem_cons.mp h
    have htold : v.isTold = false := by
      cases v <;> first | rfl | exact hfirst.elim
    have hcons : positions p (v :: vs) = positions (v.pathAfter p) vs := by
      simp only [positions, locate, List.filter_cons, htold, Bool.false_eq_true, if_false]
    rw [hcons, hfirst.pathAfter, ih hrest]

/-- A step of a watched walk from one path to another: result and state are those of the step when
it is not watched, and the paths of a trail are noted. -/
def Follows (p q : Path) (trail : List Path) (watched : StateM (Watched σ) α) (step : StateM σ α) :
    Prop :=
  ∀ w : Watched σ, w.path = p → ∃ notes, notes.map Prod.fst = trail ∧
    watched w = ((step w.state).1,
      { state := (step w.state).2, path := q, notes := w.notes ++ notes })

namespace Follows

variable {p q o : Path} {trail trail' : List Path}

theorem done (a : α) : Follows p p [] (pure a : StateM (Watched σ) α) (pure a) := by
  rintro w rfl
  refine ⟨[], rfl, ?_⟩
  rw [List.append_nil]
  rfl

theorem bind {watched : StateM (Watched σ) α} {step : StateM σ α}
    {watched' : α → StateM (Watched σ) β} {step' : α → StateM σ β}
    (h : Follows p q trail watched step) (k : ∀ a, Follows q o trail' (watched' a) (step' a)) :
    Follows p o (trail ++ trail') (watched >>= watched') (step >>= step') := by
  intro w hw
  obtain ⟨notes, hnotes, heq⟩ := h w hw
  obtain ⟨notes', hnotes', heq'⟩ := k (step w.state).1
    { state := (step w.state).2, path := q, notes := w.notes ++ notes } rfl
  refine ⟨notes ++ notes', by rw [List.map_append, hnotes, hnotes'], ?_⟩
  have hbind : (watched >>= watched') w = watched' (watched w).1 (watched w).2 := rfl
  rw [hbind, heq, heq', List.append_assoc]
  rfl

theorem last {watched : StateM (Watched σ) α} {step : StateM σ α} (next : α → β)
    (h : Follows p q trail watched step) :
    Follows p q trail (watched >>= fun a => pure (next a)) (step >>= fun a => pure (next a)) := by
  have hboth := h.bind fun a => done (next a)
  rwa [List.append_nil] at hboth

theorem visit (editor : Editor σ) (p : Path) (v : Visit) :
    Follows p (v.pathAfter p) [v.pathAfter p] (editor.watched.visit v) (editor.visit v) := by
  rintro w rfl
  exact ⟨[(v.pathAfter w.path, (editor.visit v w.state).2)], rfl, rfl⟩

theorem tell (editor : Editor σ) {vs : List Visit} (h : ∀ v ∈ vs, v.Announced) :
    Follows p p (vs.map fun _ => p) (editor.watched.tell vs) (editor.tell vs) := by
  induction vs with
  | nil => exact done ()
  | cons v vs ih =>
    obtain ⟨hfirst, hrest⟩ := List.forall_mem_cons.mp h
    have hquiet : v.Quiet := .inl hfirst
    have hvisit := visit editor p v
    rw [hquiet.pathAfter] at hvisit
    exact hvisit.bind fun _ => ih hrest

theorem call (editor : Editor σ) (c : Call) :
    Follows p p [p] (editor.watched.call c) (editor.call c) := by
  rintro w rfl
  exact ⟨[(w.path, w.state)], rfl, rfl⟩

theorem leaveType (editor : Editor σ) (e : Enclosure) (d : TypeDecl) :
    Follows (e :: p) p [p] (editor.watched.leaveType d) (editor.leaveType d) := by
  intro w hw
  refine ⟨[(p, (editor.leaveType d w.state).2)], rfl, ?_⟩
  have hleave : editor.watched.leaveType d w = ((editor.leaveType d w.state).1,
    w.goTo w.path.tail (editor.leaveType d w.state).2) := rfl
  rw [hleave, hw]
  rfl

theorem leaveAnonymous (editor : Editor σ) (e : Enclosure) (head : ClassHead) (ms : List Member) :
    Follows (e :: p) p [p] (editor.watched.leaveAnonymous head ms)
      (editor.leaveAnonymous head ms) := by
  intro w hw
  refine ⟨[(p, (editor.leaveAnonymous head ms w.state).2)], rfl, ?_⟩
  have hleave : editor.watched.leaveAnonymous head ms w = ((),
    w.goTo w.path.tail (editor.leaveAnonymous head ms w.state).2) := rfl
  rw [hleave, hw]
  rfl

end Follows

/-- The trail of a piece is the same for all editors, and it comes by all positions in the piece, in
their order. -/
def Trailed (K : Kind α) (p : Path) (a : α) (trail : List Path) : Prop :=
  (∀ {σ : Type} (editor : Editor σ),
    Follows p p trail (K.edit editor.watched a) (K.edit editor a)) ∧
    (positions p (K.visits a)).Sublist trail

theorem exists_trailed : Hereditary fun K p a => ∃ trail, Trailed K p a trail where
  unit := ⟨[], fun _ => .done (), .refl _⟩
  pair {_ _ K L p a b} level ha hb := by
    obtain ⟨trail, hfirst, hsub⟩ := ha
    obtain ⟨trail', hsecond, hsub'⟩ := hb
    refine ⟨trail ++ trail', fun editor => ?_, ?_⟩
    · exact (hfirst editor).bind fun a' => (hsecond editor).last fun b' => (a', b')
    · have hvisits : (K.prod L).visits (a, b) = K.visits a ++ L.visits b := rfl
      rw [hvisits, positions_append (level a)]
      exact hsub.append hsub'
  node {_ _ K L} build own refs {p a} n ha := by
    obtain ⟨trail, hparts, hsub⟩ := ha
    refine ⟨(own a).map (fun _ => p) ++ trail, fun editor => ?_, ?_⟩
    · rw [n.edit, n.edit]
      exact (Follows.tell editor (n.announced a)).bind fun _ => (hparts editor).last build
    · have hown : Level (own a) := .quiet fun v hv => .inl (n.announced a v hv)
      have hrefs : Level refs := .quiet fun v hv => .inr (n.unannounced v hv)
      rw [n.visits, List.append_assoc, positions_append hown, positions_append hrefs,
        positions_announced (n.announced a), positions_unannounced n.unannounced, List.nil_append]
      exact (List.Sublist.refl _).append hsub
  call {p} c hr ha := by
    obtain ⟨trail, hreceiver, hsub⟩ := hr
    obtain ⟨trail', hargs, hsub'⟩ := ha
    refine ⟨[p] ++ ([p] ++ (trail ++ (trail' ++ [p]))), fun editor => ?_, ?_⟩
    · have hedit : ∀ {τ : Type} (editor : Editor τ),
          Kind.expr.edit editor (.call c) = editor.expr (.call c) := fun _ => rfl
      rw [hedit, hedit, Editor.expr_call, Editor.expr_call]
      refine (Follows.visit editor p (.expr (.call c))).bind fun _ =>
        (Follows.visit editor p (.call c)).bind fun _ => (hreceiver editor).bind fun receiver =>
          (hargs editor).bind fun args => ?_
      exact (Follows.call editor { c with receiver, args }).last Expr.call
    · have hvisits : Kind.expr.visits (.call c) = (Expr.call c).visits := rfl
      rw [hvisits, Expr.visits_call, positions_cons rfl, positions_cons rfl]
      have hlevel :=
        positions_append (Expr.visitsOption_level c.receiver) p (Expr.visitsList c.args)
      refine .cons_cons p (.cons_cons p ?_)
      have hboth := hsub.append (hsub'.trans (List.sublist_append_left trail' [p]))
      exact hlevel ▸ hboth
  anonymous {p head ms} hms := by
    obtain ⟨trail, hmembers, hsub⟩ := hms
    refine ⟨[.anonymous head ms :: p] ++ (trail ++ [p]), fun editor => ?_, ?_⟩
    · refine (Follows.visit editor p (.enterAnonymous head ms)).bind fun _ =>
        (hmembers editor).bind fun ms' => ?_
      exact (Follows.leaveAnonymous editor _ head ms').last fun _ => ms'
    · have hvisits : (Kind.anonymous head).visits ms =
        .enterAnonymous head ms :: (Member.visitsList ms ++ [.leaveAnonymous head ms]) := rfl
      rw [hvisits, positions_cons rfl]
      have hlevel := positions_append (Member.visitsList_level ms) (.anonymous head ms :: p)
        [.leaveAnonymous head ms]
      exact .cons_cons _ (hlevel ▸ hsub.append (.refl _))
  type {p site d} hd := by
    obtain ⟨trail, hbody, hsub⟩ := hd
    refine ⟨[.type d site :: p] ++ (trail ++ [p]), fun editor => ?_, ?_⟩
    · have hedit : ∀ {τ : Type} (editor : Editor τ),
          (Kind.typeDecl site).edit editor d = editor.typeDecl site d := fun _ => rfl
      rw [hedit, hedit, Editor.typeDecl_eq, Editor.typeDecl_eq]
      refine (Follows.visit editor p (.enterType d site)).bind fun _ =>
        (hbody editor).bind fun d' => ?_
      exact Follows.leaveType editor _ d'
    · have hvisits : (Kind.typeDecl site).visits d = d.visits site := rfl
      rw [hvisits, TypeDecl.visits_eq, positions_cons rfl]
      have hlevel := positions_append d.innerVisits_level (.type d site :: p) [.leaveType d]
      exact .cons_cons _ (hlevel ▸ hsub.append (.refl _))

def Editor.notes (editor : Editor σ) (ds : List TypeDecl) (s : σ) : List (Path × σ) :=
  (editor.watched.types ds { state := s }).2.notes

theorem exists_trail (ds : List TypeDecl) : ∃ trail : List Path,
    (positions [] (typesVisits ds)).Sublist trail ∧
    ∀ {σ : Type} (editor : Editor σ) (s : σ), (editor.notes ds s).map (·.1) = trail ∧
      editor.watched.types ds { state := s } = ((editor.types ds s).1,
        { state := (editor.types ds s).2, notes := editor.notes ds s }) := by
  obtain ⟨trail, hfollows, hsub⟩ := exists_trailed.types [] ds
  refine ⟨trail, hsub, fun editor s => ?_⟩
  obtain ⟨notes, hnotes, heq⟩ := hfollows editor { state := s } rfl
  have hsame : editor.notes ds s = notes := congrArg (fun x => x.2.notes) heq
  rw [hsame]
  exact ⟨hnotes, heq⟩

theorem Editor.watched_types (editor : Editor σ) (ds : List TypeDecl) (s : σ) :
    editor.watched.types ds { state := s } = ((editor.types ds s).1,
      { state := (editor.types ds s).2, notes := editor.notes ds s }) := by
  obtain ⟨_, _, hall⟩ := exists_trail ds
  exact (hall editor s).2

theorem Editor.positions_sublist_notes (editor : Editor σ) (ds : List TypeDecl) (s : σ) :
    (positions [] (typesVisits ds)).Sublist ((editor.notes ds s).map (·.1)) := by
  obtain ⟨trail, hsub, hall⟩ := exists_trail ds
  rw [(hall editor s).1]
  exact hsub

/-- If what two editors have in their states follows from the path, and in the same manner, then
their notes tell the same about it. -/
theorem Editor.map_notes_eq {τ : Type} {editor : Editor σ} {editor' : Editor τ}
    {ds : List TypeDecl} {s : σ} {t : τ} (value : Path → α) (view : σ → α) (view' : τ → α)
    (h : ∀ x ∈ editor.notes ds s, view x.2 = value x.1)
    (h' : ∀ x ∈ editor'.notes ds t, view' x.2 = value x.1) :
    (editor.notes ds s).map (fun x => (x.1, view x.2)) =
      (editor'.notes ds t).map fun x => (x.1, view' x.2) := by
  obtain ⟨trail, _, hall⟩ := exists_trail ds
  have hvalues : ∀ {ρ : Type} {notes : List (Path × ρ)} {f : ρ → α}, notes.map (·.1) = trail →
      (∀ x ∈ notes, f x.2 = value x.1) →
      notes.map (fun x => (x.1, f x.2)) = trail.map fun p => (p, value p) := by
    intro ρ notes f hpaths hnotes
    rw [← hpaths, List.map_map]
    exact List.map_congr_left fun x hx => Prod.ext rfl (hnotes x hx)
  rw [hvalues (hall editor s).1 h, hvalues (hall editor' t).1 h']

theorem Editor.forall_path_notes {τ : Type} {editor : Editor σ} {ds : List TypeDecl} {s : σ}
    {P : Path → Prop} (h : ∀ x ∈ editor.notes ds s, P x.1) (editor' : Editor τ) (t : τ) :
    ∀ x ∈ editor'.notes ds t, P x.1 := by
  obtain ⟨trail, _, hall⟩ := exists_trail ds
  have hpaths : (editor'.notes ds t).map (·.1) = (editor.notes ds s).map (·.1) :=
    (hall editor' t).1.trans (hall editor s).1.symm
  intro x hx
  have hmem : x.1 ∈ (editor.notes ds s).map (·.1) := hpaths ▸ List.mem_map_of_mem hx
  obtain ⟨y, hy, hsame⟩ := List.mem_map.mp hmem
  rw [← hsame]
  exact h y hy

/-- The invariant of an editor holds where its walk is, and it held whenever a note was taken. -/
structure Watched.Keeps (inv : Path → σ → Prop) (p : Path) (w : Watched σ) : Prop where
  state : inv p w.state
  path : w.path = p
  notes : ∀ note ∈ w.notes, inv note.1 note.2

theorem Watched.Keeps.goTo {inv : Path → σ → Prop} {p q : Path} {w : Watched σ} {s : σ}
    (h : w.Keeps inv p) (hs : inv q s) : (w.goTo q s).Keeps inv q := by
  refine ⟨hs, rfl, ?_⟩
  intro note hnote
  rcases List.mem_append.mp hnote with hnote | hnote
  · exact h.notes note hnote
  · obtain rfl := List.mem_singleton.mp hnote
    exact hs

theorem Editor.Obeys.watched {editor : Editor σ} {r : Rewriting} {ok : Place → Prop}
    {inv : Path → σ → Prop} {rel : Path → List Place → σ → σ → Prop}
    (h : editor.Obeys r ok inv rel) :
    editor.watched.Obeys r ok (fun p w => w.Keeps inv p)
      fun p xs w w' => rel p xs w.state w'.state where
  refl hw := h.refl hw.state
  trans hfirst hsecond := h.trans hfirst hsecond
  visit {p v w} hv hw := by
    obtain ⟨hinv, hrel⟩ := h.visit hv hw.state
    have hquiet : v.Quiet := .inl hv
    have hpath : v.pathAfter w.path = p := by rw [hw.path, hquiet.pathAfter]
    exact ⟨hpath ▸ hw.goTo (hpath.symm ▸ hinv), hrel⟩
  skip hv hw := h.skip hv hw.state
  enterCall {p c w} hw := by
    have hpath : (Visit.call c).pathAfter w.path = p := hw.path
    exact hpath ▸ hw.goTo (hpath.symm ▸ h.enterCall hw.state)
  call {p c receiver args xs w t} hok hw hrel ht hreceiver hargs := by
    obtain ⟨hcall, hinv, hrel'⟩ := h.call hok hw.state hrel ht.state hreceiver hargs
    have hnoted : (t.goTo t.path t.state).Keeps inv t.path := ht.goTo (ht.path.symm ▸ ht.state)
    exact ⟨hcall, ⟨hinv, ht.path, hnoted.notes⟩, hrel'⟩
  enterType {p d site w} hok hw := by
    have hpath : (Visit.enterType d site).pathAfter w.path = .type d site :: p := by
      rw [hw.path, Visit.pathAfter]
    exact hpath ▸ hw.goTo (hpath.symm ▸ h.enterType hok hw.state)
  leaveType {p d d' site w t} hok hw hrel ht alike := by
    have hpath : t.path.tail = p := by rw [ht.path, List.tail_cons]
    obtain ⟨htype, hinv, hrel'⟩ := h.leaveType hok hw.state hrel ht.state alike
    exact ⟨htype, hpath ▸ ht.goTo (hpath.symm ▸ hinv), hrel'⟩
  enterAnonymous {p head ms w} hw := by
    have hpath : (Visit.enterAnonymous head ms).pathAfter w.path = .anonymous head ms :: p := by
      rw [hw.path, Visit.pathAfter]
    exact hpath ▸ hw.goTo (hpath.symm ▸ h.enterAnonymous hw.state)
  leaveAnonymous {p head ms ms' w t} hw hrel ht heads := by
    have hpath : t.path.tail = p := by rw [ht.path, List.tail_cons]
    obtain ⟨hinv, hrel'⟩ := h.leaveAnonymous hw.state hrel ht.state heads
    exact ⟨hpath ▸ ht.goTo (hpath.symm ▸ hinv), hrel'⟩

theorem Editor.Obeys.notes {editor : Editor σ} {r : Rewriting} {ok : Place → Prop}
    {inv : Path → σ → Prop} {rel : Path → List Place → σ → σ → Prop}
    (h : editor.Obeys r ok inv rel) {ds : List TypeDecl} (hok : ∀ x ∈ typesPlaces ds, ok x) {s : σ}
    (hs : inv [] s) : ∀ x ∈ editor.notes ds s, inv x.1 x.2 := by
  have hstart : Watched.Keeps inv [] { state := s } := ⟨hs, rfl, List.forall_mem_nil _⟩
  exact (h.watched.types ds hok { state := s } hstart).2.1.notes

end FactoryLowering
