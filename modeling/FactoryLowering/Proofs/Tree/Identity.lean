import FactoryLowering.Proofs.Helper
import FactoryLowering.Proofs.Host
import FactoryLowering.Proofs.Tree.Piece
import FactoryLowering.Proofs.Tree.Site
import Mathlib.Data.List.Iterate
import Mathlib.Data.List.Nodup
import Mathlib.Data.List.Perm.Basic

/-! # Identities in an edited tree

Calls, types and anonymous classes have identities. An editor that takes new ones only for members
it adds to types, and that drops nothing but receivers of calls, leaves a tree whose identities are
some of those before and the new ones, each once. What gets lost stood in a receiver; what is new
does not, so a later walk will not lose it.
-/
namespace FactoryLowering

@[simp] theorem TypeDecl.id_addMembers (ms : List Member) (d : TypeDecl) :
    (d.addMembers ms).id = d.id := by
  cases d <;> rfl

def Visit.id? : Visit → Option NodeId
  | .call c => some c.id
  | .enterType d _ => some d.id
  | .enterAnonymous head _ => some head.id
  | _ => none

def idsOf (vs : List Visit) : List NodeId := vs.filterMap Visit.id?

/-- The identities in receivers of calls. -/
def looseIds (vs : List Visit) : List NodeId :=
  (callsOf vs).flatMap fun c => idsOf (Expr.visitsOption c.receiver)

/-- The identities in receivers of those calls that are said to drop their receivers. -/
def droppedIds (drops : Path → Call → Bool) (p : Path) (vs : List Visit) : List NodeId :=
  (sites p vs).flatMap fun x =>
    if drops x.path x.call then idsOf (Expr.visitsOption x.call.receiver) else []

def Path.typeIds (p : Path) : List NodeId :=
  p.filterMap fun
    | .type d _ => some d.id
    | .anonymous _ _ => none

/-- Whether what is declared at a path gets no name from the enclosures. -/
def unnamed (package : String) (p : Path) : Bool :=
  ((scopesAt package p).current?.bind (·.fqn)).isNone

variable {α σ : Type} {drops : Path → Call → Bool} {p : Path} {vs vs' ws ws' : List Visit}
  {fresh fresh' : List NodeId}

@[simp] theorem idsOf_append (vs ws : List Visit) : idsOf (vs ++ ws) = idsOf vs ++ idsOf ws :=
  List.filterMap_append

@[simp] theorem looseIds_append (vs ws : List Visit) :
    looseIds (vs ++ ws) = looseIds vs ++ looseIds ws := by
  simp [looseIds, callsOf]

theorem droppedIds_append (h : Level vs) : droppedIds drops p (vs ++ ws) =
    droppedIds drops p vs ++ droppedIds drops p ws := by
  simp [droppedIds, sites_append h]

theorem idsOf_quiet (h : ∀ v ∈ vs, v.Quiet) : idsOf vs = [] := by
  refine List.filterMap_eq_nil_iff.mpr fun v hv => ?_
  cases v <;> first | rfl | exact (h _ hv).elim False.elim False.elim

theorem receivers_within : Hereditary fun K p a => ∀ x ∈ sites p (K.visits a),
    ∀ y ∈ locate x.path (Expr.visitsOption x.call.receiver), y ∈ locate p (K.visits a) where
  unit _ hx := nomatch hx
  pair {_ _ K L p a b} level ha hb x hx y hy := by
    have hsites : sites p ((K.prod L).visits (a, b)) = _ := sites_append (level a) p (L.visits b)
    have hplaces : locate p ((K.prod L).visits (a, b)) = _ := locate_append (level a) p (L.visits b)
    rw [hsites, List.mem_append] at hx
    rw [hplaces, List.mem_append]
    exact hx.imp (fun hx => ha x hx y hy) fun hx => hb x hx y hy
  node {_ _ K L} build own refs {p a} n ha x hx y hy := by
    rw [n.sites_eq] at hx
    rw [n.visits, locate_append (.quiet (n.quiet a))]
    exact List.mem_append_right _ (ha x hx y hy)
  call {p} c hr ha x hx y hy := by
    have hsites : sites p (Kind.expr.visits (.call c)) = _ := Expr.sites_call p c
    have hplaces : locate p (Kind.expr.visits (.call c)) = _ := Expr.locate_call p c
    rw [hsites, List.mem_cons, List.mem_append] at hx
    rw [hplaces]
    refine List.mem_cons_of_mem _ (List.mem_cons_of_mem _ ?_)
    rcases hx with rfl | hx | hx
    · exact List.mem_append_left _ hy
    · exact List.mem_append_left _ (hr x hx y hy)
    · exact List.mem_append_right _ (ha x hx y hy)
  anonymous {p head ms} hms x hx y hy := by
    have hsites : sites p ((Kind.anonymous head).visits ms) = _ := sites_anonymous p head ms
    have hplaces : locate p ((Kind.anonymous head).visits ms) = _ := locate_anonymous p head ms
    rw [hsites] at hx
    rw [hplaces]
    exact List.mem_cons_of_mem _ (List.mem_append_left _ (hms x hx y hy))
  type {p site d} hd x hx y hy := by
    have hsites : sites p ((Kind.typeDecl site).visits d) = _ := d.sites_visits p site
    have hplaces : locate p ((Kind.typeDecl site).visits d) = _ := d.locate_visits p site
    rw [hsites] at hx
    rw [hplaces]
    exact List.mem_cons_of_mem _ (List.mem_append_left _ (hd x hx y hy))

theorem looseIds_quiet (h : ∀ v ∈ vs, v.Quiet) : looseIds vs = [] := by
  rw [looseIds, callsOf_quiet h]
  rfl

theorem callsOf_eq_nil_of_idsOf (h : idsOf vs = []) : callsOf vs = [] := by
  refine List.filterMap_eq_nil_iff.mpr fun v hv => ?_
  have hnone := List.filterMap_eq_nil_iff.mp h v hv
  cases v <;> first | rfl | cases hnone

theorem looseIds_eq_nil_of_idsOf (h : idsOf vs = []) : looseIds vs = [] := by
  rw [looseIds, callsOf_eq_nil_of_idsOf h]
  rfl

theorem Expr.quiet_of_qualifiedName? : ∀ {e : Expr} {name : String},
    e.qualifiedName? = some name → ∀ v ∈ e.visits, v.Quiet
  | .ident i, _, _ => by
    simp [Expr.visits, Visit.Quiet, Visit.Announced, Visit.Unannounced]
  | .field target name span, _, h => by
    simp only [Expr.qualifiedName?, Option.map_eq_some_iff] at h
    obtain ⟨outer, houter, _⟩ := h
    rw [Expr.visits, List.forall_mem_cons]
    exact ⟨.inl trivial, quiet_of_qualifiedName? houter⟩

theorem Expr.quiet_names (names : List String) :
    ∀ v ∈ Expr.visitsList (names.map Expr.ofName), v.Quiet := by
  induction names with
  | nil => exact fun v hv => nomatch hv
  | cons name rest ih =>
    rw [List.map_cons, Expr.visitsList, List.forall_mem_append]
    exact ⟨Expr.quiet_of_qualifiedName? rfl, ih⟩

theorem idsOf_call (c : Call) : idsOf (Expr.call c).visits =
    c.id :: (idsOf (Expr.visitsOption c.receiver) ++ idsOf (Expr.visitsList c.args)) := by
  rw [Expr.visits_call, ← idsOf_append]
  rfl

theorem looseIds_call (c : Call) : looseIds (Expr.call c).visits =
    idsOf (Expr.visitsOption c.receiver) ++
      (looseIds (Expr.visitsOption c.receiver) ++ looseIds (Expr.visitsList c.args)) := by
  rw [Expr.visits_call, ← looseIds_append]
  rfl

theorem droppedIds_call (c : Call) : droppedIds drops p (Expr.call c).visits =
    (if drops p c then idsOf (Expr.visitsOption c.receiver) else []) ++
      (droppedIds drops p (Expr.visitsOption c.receiver) ++
        droppedIds drops p (Expr.visitsList c.args)) := by
  rw [Expr.visits_call, ← droppedIds_append (Expr.visitsOption_level c.receiver)]
  rfl

theorem TypeDecl.idsOf_visits (site : TypeSite) (d : TypeDecl) :
    idsOf (d.visits site) = d.id :: idsOf d.innerVisits := by
  rw [TypeDecl.visits_eq]
  have hinner := idsOf_append d.innerVisits [.leaveType d]
  exact congrArg (List.cons d.id) (hinner.trans (List.append_nil _))

theorem TypeDecl.looseIds_visits (site : TypeSite) (d : TypeDecl) :
    looseIds (d.visits site) = looseIds d.innerVisits := by
  rw [TypeDecl.visits_eq]
  have hinner := looseIds_append d.innerVisits [.leaveType d]
  exact hinner.trans (List.append_nil _)

theorem TypeDecl.droppedIds_visits (site : TypeSite) (d : TypeDecl) :
    droppedIds drops p (d.visits site) = droppedIds drops (.type d site :: p) d.innerVisits := by
  rw [droppedIds, TypeDecl.sites_visits, droppedIds]

theorem idsOf_anonymous (head : ClassHead) (ms : List Member) :
    idsOf ((Kind.anonymous head).visits ms) = head.id :: idsOf (Member.visitsList ms) := by
  have hinner := idsOf_append (Member.visitsList ms) [.leaveAnonymous head ms]
  exact congrArg (List.cons head.id) (hinner.trans (List.append_nil _))

theorem looseIds_anonymous (head : ClassHead) (ms : List Member) :
    looseIds ((Kind.anonymous head).visits ms) = looseIds (Member.visitsList ms) := by
  have hinner := looseIds_append (Member.visitsList ms) [.leaveAnonymous head ms]
  exact hinner.trans (List.append_nil _)

theorem droppedIds_anonymous (head : ClassHead) (ms : List Member) :
    droppedIds drops p ((Kind.anonymous head).visits ms) =
      droppedIds drops (.anonymous head ms :: p) (Member.visitsList ms) := by
  simp only [droppedIds, Kind.anonymous, sites_anonymous]

theorem mem_looseIds_of_mem_droppedIds {n : NodeId} (h : n ∈ droppedIds drops p vs) :
    n ∈ looseIds vs := by
  obtain ⟨x, hx, hn⟩ := List.mem_flatMap.mp h
  have hcall : x.call ∈ callsOf vs := by
    rw [← placeCalls_locate p vs]
    exact List.mem_map_of_mem hx
  split at hn
  · exact List.mem_flatMap.mpr ⟨x.call, hcall, hn⟩
  · cases hn

/-- What became of the identities in a piece: some were kept and fresh ones were added. -/
structure KeepsIds (drops : Path → Call → Bool) (p : Path) (vs vs' : List Visit)
    (fresh : List NodeId) : Prop where
  split : ∃ kept, kept.Sublist (idsOf vs) ∧ (idsOf vs').Perm (kept ++ fresh)
  lost : ∀ n ∈ idsOf vs, n ∈ idsOf vs' ∨ n ∈ droppedIds drops p vs
  loose : ∀ n ∈ looseIds vs', n ∈ looseIds vs

structure KeepsCallId (drops : Path → Call → Bool) (p : Path) (c : Call) (receiver : Option Expr)
    (args : List Expr) (new : Call) : Prop where
  id : new.id = c.id
  args : new.args = args
  receiver : new.receiver = receiver ∨ idsOf (Expr.visitsOption new.receiver) = [] ∧
    (drops p c = true ∨ idsOf (Expr.visitsOption receiver) = [])

namespace KeepsIds

theorem quiet (hv : ∀ v ∈ vs, v.Quiet) (hv' : ∀ v ∈ vs', v.Quiet) :
    KeepsIds drops p vs vs' [] := by
  refine ⟨⟨[], List.nil_sublist _, ?_⟩, fun n hn => ?_, fun n hn => ?_⟩
  · rw [idsOf_quiet hv']
    exact .refl _
  · rw [idsOf_quiet hv] at hn
    cases hn
  · rw [looseIds_quiet hv'] at hn
    cases hn

theorem refl (vs : List Visit) : KeepsIds drops p vs vs [] := by
  refine ⟨⟨idsOf vs, List.Sublist.refl _, ?_⟩, fun n hn => .inl hn, fun n hn => hn⟩
  rw [List.append_nil]

theorem append (level : Level vs) (h : KeepsIds drops p vs vs' fresh)
    (k : KeepsIds drops p ws ws' fresh') :
    KeepsIds drops p (vs ++ ws) (vs' ++ ws') (fresh ++ fresh') := by
  obtain ⟨⟨kept, hsub, hperm⟩, hlost, hloose⟩ := h
  obtain ⟨⟨kept', hsub', hperm'⟩, hlost', hloose'⟩ := k
  refine ⟨⟨kept ++ kept', ?_, ?_⟩, fun n hn => ?_, fun n hn => ?_⟩
  · rw [idsOf_append]
    exact hsub.append hsub'
  · rw [idsOf_append]
    refine (hperm.append hperm').trans ?_
    rw [List.append_assoc, List.append_assoc]
    refine List.Perm.append_left kept ?_
    rw [← List.append_assoc, ← List.append_assoc]
    exact List.Perm.append_right fresh' List.perm_append_comm
  · rw [idsOf_append, List.mem_append] at hn ⊢
    rw [droppedIds_append level, List.mem_append]
    rcases hn with hn | hn
    · rcases hlost n hn with hn | hn
      · exact .inl (.inl hn)
      · exact .inr (.inl hn)
    · rcases hlost' n hn with hn | hn
      · exact .inl (.inr hn)
      · exact .inr (.inr hn)
  · rw [looseIds_append, List.mem_append] at hn ⊢
    exact hn.imp (hloose n) (hloose' n)

theorem added (hids : idsOf vs = fresh) (hloose : looseIds vs = []) :
    KeepsIds drops p [] vs fresh := by
  refine ⟨⟨[], List.nil_sublist _, ?_⟩, fun n hn => (nomatch hn), fun n hn => ?_⟩
  · rw [hids]
    exact .refl _
  · rw [hloose] at hn
    cases hn

theorem mem_of_mem (h : KeepsIds drops p vs vs' []) {n : NodeId} (hn : n ∈ idsOf vs') :
    n ∈ idsOf vs := by
  obtain ⟨kept, hsub, hperm⟩ := h.split
  rw [List.append_nil] at hperm
  exact hsub.subset (hperm.mem_iff.mp hn)

theorem callKeeping {c new : Call} {receiver : Option Expr} {args : List Expr}
    (hr : KeepsIds drops p (Expr.visitsOption c.receiver) (Expr.visitsOption receiver) [])
    (ha : KeepsIds drops p (Expr.visitsList c.args) (Expr.visitsList args) [])
    (hid : new.id = c.id) (hargs : new.args = args) (hreceiver : new.receiver = receiver) :
    KeepsIds drops p (Expr.call c).visits (Expr.call new).visits [] := by
  have hboth := hr.append (Expr.visitsOption_level c.receiver) ha
  obtain ⟨kept, hsub, hperm⟩ := hboth.split
  rw [idsOf_append] at hsub hperm
  refine ⟨⟨c.id :: kept, ?_, ?_⟩, fun n hn => ?_, fun n hn => ?_⟩
  · rw [idsOf_call]
    exact hsub.cons_cons c.id
  · rw [idsOf_call, hid, hargs, hreceiver]
    exact hperm.cons c.id
  · rw [idsOf_call, List.mem_cons] at hn
    rw [idsOf_call, droppedIds_call, hid, hargs, hreceiver]
    rcases hn with rfl | hn
    · exact .inl List.mem_cons_self
    · rw [← idsOf_append] at hn ⊢
      rw [← droppedIds_append (Expr.visitsOption_level c.receiver)]
      exact (hboth.lost n hn).imp (List.mem_cons_of_mem _) (List.mem_append_right _)
  · rw [looseIds_call, hargs, hreceiver, ← looseIds_append, List.mem_append] at hn
    rw [looseIds_call, ← looseIds_append, List.mem_append]
    exact hn.imp hr.mem_of_mem (hboth.loose n)

/-- What is lost with a receiver stood in the receiver before. -/
theorem callDropping {c new : Call} {receiver : Option Expr} {args : List Expr}
    (hr : KeepsIds drops p (Expr.visitsOption c.receiver) (Expr.visitsOption receiver) [])
    (ha : KeepsIds drops p (Expr.visitsList c.args) (Expr.visitsList args) [])
    (hid : new.id = c.id) (hargs : new.args = args)
    (hnew : idsOf (Expr.visitsOption new.receiver) = [])
    (hdrops : drops p c = true ∨ idsOf (Expr.visitsOption receiver) = []) :
    KeepsIds drops p (Expr.call c).visits (Expr.call new).visits [] := by
  obtain ⟨kept, hsub, hperm⟩ := ha.split
  have hids : idsOf (Expr.call new).visits = c.id :: idsOf (Expr.visitsList args) := by
    rw [idsOf_call, hid, hargs, hnew, List.nil_append]
  refine ⟨⟨c.id :: kept, ?_, ?_⟩, fun n hn => ?_, fun n hn => ?_⟩
  · rw [idsOf_call]
    exact (hsub.trans (List.sublist_append_right _ _)).cons_cons c.id
  · rw [hids]
    exact hperm.cons c.id
  · rw [idsOf_call, List.mem_cons, List.mem_append] at hn
    rw [hids, droppedIds_call, List.mem_append, List.mem_append]
    rcases hn with rfl | hn | hn
    · exact .inl List.mem_cons_self
    · right
      rcases hdrops with hdrops | hnone
      · rw [hdrops]
        exact .inl hn
      · rcases hr.lost n hn with hn | hn
        · rw [hnone] at hn
          cases hn
        · exact .inr (.inl hn)
    · rcases ha.lost n hn with hn | hn
      · exact .inl (List.mem_cons_of_mem _ hn)
      · exact .inr (.inr (.inr hn))
  · have hloose := looseIds_eq_nil_of_idsOf hnew
    rw [looseIds_call, hargs, hnew, hloose, List.nil_append, List.nil_append] at hn
    rw [looseIds_call, List.mem_append, List.mem_append]
    exact .inr (.inr (ha.loose n hn))

theorem call {c new : Call} {receiver : Option Expr} {args : List Expr}
    (hr : KeepsIds drops p (Expr.visitsOption c.receiver) (Expr.visitsOption receiver) [])
    (ha : KeepsIds drops p (Expr.visitsList c.args) (Expr.visitsList args) [])
    (h : KeepsCallId drops p c receiver args new) :
    KeepsIds drops p (Expr.call c).visits (Expr.call new).visits [] := by
  rcases h.receiver with hsame | ⟨hnew, hdrops⟩
  · exact hr.callKeeping ha h.id h.args hsame
  · exact hr.callDropping ha h.id h.args hnew hdrops

theorem enclose {e : Enclosure} {n : NodeId} {before after : List Visit}
    (h : KeepsIds drops (e :: p) vs vs' fresh)
    (hids : idsOf before = n :: idsOf vs) (hids' : idsOf after = n :: idsOf vs')
    (hdropped : droppedIds drops p before = droppedIds drops (e :: p) vs)
    (hloose : looseIds before = looseIds vs) (hloose' : looseIds after = looseIds vs') :
    KeepsIds drops p before after fresh := by
  obtain ⟨⟨kept, hsub, hperm⟩, hlost, hless⟩ := h
  refine ⟨⟨n :: kept, ?_, ?_⟩, fun m hm => ?_, ?_⟩
  · rw [hids]
    exact hsub.cons_cons n
  · rw [hids']
    exact hperm.cons n
  · rw [hids, List.mem_cons] at hm
    rw [hids', hdropped, List.mem_cons]
    rcases hm with rfl | hm
    · exact .inl (.inl rfl)
    · exact (hlost m hm).imp_left .inr
  · rw [hloose, hloose']
    exact hless

theorem typeDecl {d d' : TypeDecl} {site : TypeSite} {ms : List Member}
    (h : KeepsIds drops (.type d site :: p) d.innerVisits d'.innerVisits fresh)
    (hid : d'.id = d.id) (hids : idsOf (Member.visitsList ms) = fresh')
    (hloose : looseIds (Member.visitsList ms) = []) :
    KeepsIds drops p (d.visits site) ((d'.addMembers ms).visits site) (fresh ++ fresh') := by
  have hinner := h.append d.innerVisits_level (.added hids hloose)
  rw [List.append_nil, ← TypeDecl.innerVisits_addMembers] at hinner
  refine hinner.enclose (d.idsOf_visits site) ?_ (d.droppedIds_visits site)
    (d.looseIds_visits site) (TypeDecl.looseIds_visits site _)
  rw [TypeDecl.idsOf_visits, TypeDecl.id_addMembers, hid]

end KeepsIds

/-- Members whose nodes have the first `count` identities that the counter gives out from `first`
on. None of these nodes stands in a receiver. -/
structure Numbered (ms : List Member) (first : NodeId) (count : Nat) : Prop where
  ids : idsOf (Member.visitsList ms) = List.iterate NodeId.next first count
  loose : looseIds (Member.visitsList ms) = []

namespace Numbered

theorem nil (first : NodeId) : Numbered [] first 0 := ⟨rfl, rfl⟩

theorem append {ms ns : List Member} {first : NodeId} {k l : Nat} (h : Numbered ms first k)
    (h' : Numbered ns (NodeId.next^[k] first) l) : Numbered (ms ++ ns) first (k + l) := by
  refine ⟨?_, ?_⟩
  · rw [Member.visitsList_append, idsOf_append, h.ids, h'.ids, List.iterate_add]
  · rw [Member.visitsList_append, looseIds_append, h.loose, h'.loose]
    rfl

end Numbered

theorem NodeId.next_of_lt_last {id : NodeId} (h : id < NodeId.last) : NodeId.next id = id + 1 :=
  Nat.mod_eq_of_lt (Nat.succ_lt_succ h)

theorem NodeId.iterate_eq_range' {first : NodeId} {count : Nat}
    (h : ∀ n ∈ List.iterate NodeId.next first count, n < NodeId.last) :
    List.iterate NodeId.next first count = List.range' first count ∧
      NodeId.next^[count] first = first + count := by
  induction count generalizing first with
  | zero => exact ⟨rfl, rfl⟩
  | succ count ih =>
    obtain ⟨hfirst, hrest⟩ := List.forall_mem_cons.mp h
    have hnext : NodeId.next first = first + 1 := NodeId.next_of_lt_last hfirst
    rw [hnext] at hrest
    obtain ⟨hids, hcounter⟩ := ih hrest
    rw [List.iterate, Function.iterate_succ_apply, hnext, hids, hcounter, List.range'_succ]
    exact ⟨rfl, Nat.add_right_comm first 1 count⟩

/-- The counter is a 32-bit number: it counts up, and from the greatest number to 0. -/
theorem NodeId.iterate_next_toNat (w : UInt32) (k : Nat) :
    NodeId.next^[k] w.toNat = (w + UInt32.ofNat k).toNat := by
  induction k with
  | zero => simp
  | succ k ih =>
    have hnext : ((w + UInt32.ofNat k).toNat + 1) % 2 ^ 32 = (w + UInt32.ofNat (k + 1)).toNat := by
      simp only [UInt32.toNat_add, UInt32.toNat_ofNat']
      omega
    rw [Function.iterate_succ_apply', ih]
    exact hnext

theorem NodeId.lt_last_of_mem_iterate {w : UInt32} {count : Nat} (h : w.toNat + count < 2 ^ 32) :
    ∀ id ∈ List.iterate NodeId.next w.toNat count, id < NodeId.last := by
  intro id hid
  obtain ⟨i, hi, rfl⟩ := List.mem_iterate.mp hid
  have hlt : (w + UInt32.ofNat i).toNat < 2 ^ 32 - 1 := by
    simp only [UInt32.toNat_add, UInt32.toNat_ofNat']
    omega
  rw [NodeId.iterate_next_toNat]
  exact hlt

/-- The obligations of an editor that takes identities from a counter: it does so only for members
that it adds to types which have a name. -/
structure Editor.TracksIds (editor : Editor σ) (package : String) (ok : Place → Prop)
    (inv : Path → σ → Prop) (next : σ → NodeId) (drops : Path → Call → Bool) : Prop where
  visit : ∀ {p v s}, v.Announced → inv p s →
    inv p (editor.visit v s).2 ∧ next (editor.visit v s).2 = next s
  enterCall : ∀ {p s} c, inv p s →
    inv p (editor.visit (.call c) s).2 ∧ next (editor.visit (.call c) s).2 = next s
  call : ∀ {p c receiver args s}, inv p s → args.length = c.args.length →
    KeepsCallId drops p c receiver args (editor.call { c with receiver, args } s).1 ∧
      inv p (editor.call { c with receiver, args } s).2 ∧
      next (editor.call { c with receiver, args } s).2 = next s
  enterType : ∀ {p s} d site, inv p s →
    inv (.type d site :: p) (editor.visit (.enterType d site) s).2 ∧
      next (editor.visit (.enterType d site) s).2 = next s
  leaveType : ∀ {p d site s} d', ok ⟨p, .enterType d site⟩ → inv (.type d site :: p) s →
    ∃ ms k, (editor.leaveType d' s).1 = d'.addMembers ms ∧ inv p (editor.leaveType d' s).2 ∧
      Numbered ms (next s) k ∧ next (editor.leaveType d' s).2 = NodeId.next^[k] (next s) ∧
      (unnamed package (.type d site :: p) = true → k = 0)
  enterAnonymous : ∀ {p s} head ms, inv p s →
    inv (.anonymous head ms :: p) (editor.visit (.enterAnonymous head ms) s).2 ∧
      next (editor.visit (.enterAnonymous head ms) s).2 = next s
  leaveAnonymous : ∀ {p head ms s} ms', inv (.anonymous head ms :: p) s →
    inv p (editor.leaveAnonymous head ms' s).2 ∧
      next (editor.leaveAnonymous head ms' s).2 = next s

/-- What an edit of a piece that takes `k` identities does to the counter and to the identities in
the piece. -/
structure IdEffect (package : String) (inv : Path → σ → Prop) (next : σ → NodeId)
    (drops : Path → Call → Bool) (K : Kind α) (p : Path) (a : α) (s : σ) (out : α × σ)
    (k : Nat) : Prop where
  inv : inv p out.2
  counter : next out.2 = NodeId.next^[k] (next s)
  ids : KeepsIds drops p (K.visits a) (K.visits out.1) (List.iterate NodeId.next (next s) k)
  hidden : K.hides (unnamed package p) = true → k = 0

theorem IdEffect.still {package : String} {inv : Path → σ → Prop} {next : σ → NodeId} {K : Kind α}
    {a : α} {s : σ} {out : α × σ} (hinv : inv p out.2) (hnext : next out.2 = next s)
    (hids : KeepsIds drops p (K.visits a) (K.visits out.1) []) :
    ∃ k, IdEffect package inv next drops K p a s out k :=
  ⟨0, hinv, hnext, hids, fun _ => rfl⟩

/-- The identities of a piece, and those it has after an edit, wherever the piece stands. -/
def TracksPiece (editor : Editor σ) (package : String) (ok : Place → Prop)
    (inv : Path → σ → Prop) (next : σ → NodeId) (drops : Path → Call → Bool) {α : Type}
    (K : Kind α) (p : Path) (a : α) : Prop :=
  (∀ x ∈ locate p (K.visits a), ok x) → ∀ s, inv p s →
    ∃ k, IdEffect package inv next drops K p a s (K.edit editor a s) k

theorem unnamed_type (package : String) (p : Path) (d : TypeDecl) (site : TypeSite) :
    unnamed package (.type d site :: p) = (Kind.typeDecl site).hides (unnamed package p) := by
  cases site with
  | topLevel => rfl
  | inType => exact Option.isNone_map
  | inBlock => rfl

/-- A type without a name is no host. -/
theorem hostIds_of_unnamed {package : String} {d : TypeDecl} {site : TypeSite}
    (h : unnamed package (.type d site :: p) = true) :
    hostIds package (.type d site :: p) = hostIds package p := by
  have here : hostsHere package (.type d site :: p) = false := by
    have hname : ((scopesAt package p).nameAt d.name site).isSome = false := by
      rw [← Option.not_isNone, Bool.not_eq_false']
      exact h
    simp only [hostsHere, scopesAt, ScopeStack.enter, ScopeStack.current?, List.head?_cons,
      Option.any_some, hname, Bool.false_and]
  rw [hostIds_type, here]
  rfl

theorem Editor.length_exprList (editor : Editor σ) (es : List Expr) (s : σ) :
    (editor.exprList es s).1.length = es.length := by
  induction es generalizing s with
  | nil => rfl
  | cons e es ih => exact congrArg (· + 1) (ih _)

namespace Editor.TracksIds

variable {β : Type} {editor : Editor σ} {package : String} {ok : Place → Prop}
  {inv : Path → σ → Prop} {next : σ → NodeId} {K : Kind α} {L : Kind β}

theorem tell (h : editor.TracksIds package ok inv next drops) {s : σ}
    (hv : ∀ v ∈ vs, v.Announced) (hs : inv p s) :
    inv p (editor.tell vs s).2 ∧ next (editor.tell vs s).2 = next s := by
  induction vs generalizing s with
  | nil => exact ⟨hs, rfl⟩
  | cons v vs ih =>
    obtain ⟨hfirst, hrest⟩ := List.forall_mem_cons.mp hv
    obtain ⟨ht, hnext⟩ := h.visit hfirst hs
    obtain ⟨hu, hlast⟩ := ih hrest ht
    exact ⟨hu, hlast.trans hnext⟩

theorem tracks_node (h : editor.TracksIds package ok inv next drops) {build : α → β}
    {own : α → List Visit} {refs : List Visit} {a : α} (n : K.Node L build own refs)
    (hp : TracksPiece editor package ok inv next drops K p a) :
    TracksPiece editor package ok inv next drops L p (build a) := by
  have hlevel := Level.quiet (n.quiet a)
  intro hok s hs
  rw [n.visits, locate_append hlevel, List.forall_mem_append] at hok
  obtain ⟨ht, hnext⟩ := h.tell (n.announced a) hs
  obtain ⟨k, hinv, hcounter, hids, hhidden⟩ := hp hok.2 _ ht
  rw [n.edit]
  refine ⟨k, hinv, hnext ▸ hcounter, ?_, fun hides => hhidden (n.hides _ hides)⟩
  have hboth := (KeepsIds.quiet (n.quiet a)
    (n.quiet (K.edit editor a (editor.tell (own a) s).2).1)).append hlevel hids
  rw [← n.visits, ← n.visits, hnext, List.nil_append] at hboth
  exact hboth

theorem tracks_pair {a : α} {b : β} (level : ∀ a, Level (K.visits a))
    (hp : TracksPiece editor package ok inv next drops K p a)
    (hq : TracksPiece editor package ok inv next drops L p b) :
    TracksPiece editor package ok inv next drops (K.prod L) p (a, b) := by
  intro hok s hs
  have hok : ∀ x ∈ locate p (K.visits a ++ L.visits b), ok x := hok
  rw [locate_append (level a), List.forall_mem_append] at hok
  obtain ⟨k, ht, hcounter, hids, hhidden⟩ := hp hok.1 s hs
  obtain ⟨l, hu, hcounter', hids', hhidden'⟩ := hq hok.2 _ ht
  rw [hcounter] at hcounter' hids'
  refine ⟨k + l, hu, ?_, ?_, fun hides => ?_⟩
  · rw [Nat.add_comm, Function.iterate_add_apply]
    exact hcounter'
  · rw [List.iterate_add]
    exact hids.append (level a) hids'
  · have hides : (K.hides (unnamed package p) && L.hides (unnamed package p)) = true := hides
    rw [Bool.and_eq_true] at hides
    rw [hhidden hides.1, hhidden' hides.2]

theorem tracks_call (h : editor.TracksIds package ok inv next drops) (c : Call)
    (hr : TracksPiece editor package ok inv next drops .exprOption p c.receiver)
    (ha : TracksPiece editor package ok inv next drops .exprList p c.args) :
    TracksPiece editor package ok inv next drops .expr p (.call c) := by
  intro hok s hs
  have hok : ∀ x ∈ locate p (Expr.call c).visits, ok x := hok
  rw [Expr.locate_call] at hok
  simp only [List.forall_mem_cons, List.forall_mem_append] at hok
  obtain ⟨_, _, hokr, hoka⟩ := hok
  obtain ⟨hs₁, hnext₁⟩ := h.visit (v := .expr (.call c)) trivial hs
  obtain ⟨hs₂, hnext₂⟩ := h.enterCall c hs₁
  obtain ⟨k, hs₃, hnext₃, hidsr, hhidden₃⟩ := hr hokr _ hs₂
  obtain ⟨l, hs₄, hnext₄, hidsa, hhidden₄⟩ := ha hoka _ hs₃
  -- Types inside expressions have no name, so the counter stands still in both.
  obtain rfl := hhidden₃ rfl
  obtain rfl := hhidden₄ rfl
  obtain ⟨hcall, hs₅, hnext₅⟩ := h.call hs₄ (editor.length_exprList c.args _)
  have hnext := hnext₅.trans (hnext₄.trans (hnext₃.trans (hnext₂.trans hnext₁)))
  have hids := hidsr.call hidsa hcall
  have hedit : Kind.expr.edit editor (.call c) = editor.expr (.call c) := rfl
  rw [hedit, Editor.expr_call]
  exact IdEffect.still hs₅ hnext hids

theorem tracks_anonymous (h : editor.TracksIds package ok inv next drops) {head : ClassHead}
    {ms : List Member}
    (hms : TracksPiece editor package ok inv next drops .memberList (.anonymous head ms :: p) ms) :
    TracksPiece editor package ok inv next drops (.anonymous head) p ms := by
  intro hok s hs
  have hplaces : locate p ((Kind.anonymous head).visits ms) = _ := locate_anonymous p head ms
  rw [hplaces, List.forall_mem_cons, List.forall_mem_append] at hok
  obtain ⟨hs₁, hnext₁⟩ := h.enterAnonymous head ms hs
  obtain ⟨k, hs₂, hnext₂, hids, hhidden⟩ := hms hok.2.1 _ hs₁
  obtain rfl := hhidden rfl
  obtain ⟨hs₃, hnext₃⟩ := h.leaveAnonymous (Kind.memberList.edit editor ms _).1 hs₂
  have hnext := hnext₃.trans (hnext₂.trans hnext₁)
  exact IdEffect.still hs₃ hnext (hids.enclose (idsOf_anonymous head ms) (idsOf_anonymous head _)
    (droppedIds_anonymous head ms) (looseIds_anonymous head ms) (looseIds_anonymous head _))

theorem tracks_type (h : editor.TracksIds package ok inv next drops) {site : TypeSite}
    {d : TypeDecl}
    (hd : TracksPiece editor package ok inv next drops .body (.type d site :: p) d) :
    TracksPiece editor package ok inv next drops (.typeDecl site) p d := by
  intro hok s hs
  have hok : ∀ x ∈ locate p (d.visits site), ok x := hok
  rw [TypeDecl.locate_visits, List.forall_mem_cons, List.forall_mem_append] at hok
  obtain ⟨hs₁, hnext₁⟩ := h.enterType d site hs
  obtain ⟨k, hs₂, hcounter, hids, hhidden⟩ := hd hok.2.1 _ hs₁
  obtain ⟨ms, l, hnew, hs₃, hadded, hcounter', hstill⟩ :=
    h.leaveType (Kind.body.edit editor d (editor.visit (.enterType d site) s).2).1 hok.1 hs₂
  have hedit : (Kind.typeDecl site).edit editor d = editor.typeDecl site d := rfl
  rw [hedit, Editor.typeDecl_eq]
  rw [hnext₁] at hcounter hids
  rw [hcounter] at hadded hcounter'
  refine ⟨k + l, hs₃, ?_, ?_, fun hides => ?_⟩
  · rw [Nat.add_comm, Function.iterate_add_apply]
    exact hcounter'
  · have hboth := hids.typeDecl (editor.alike_body d _).id hadded.ids hadded.loose
    rw [← List.iterate_add, ← hnew] at hboth
    exact hboth
  · rw [← unnamed_type package p d site] at hides
    rw [hhidden hides, hstill hides]

theorem hereditary (h : editor.TracksIds package ok inv next drops) :
    Hereditary (TracksPiece editor package ok inv next drops) where
  unit _ _ hs := IdEffect.still hs rfl (.added rfl rfl)
  pair := tracks_pair
  node _ _ _ := h.tracks_node
  call := h.tracks_call
  anonymous := h.tracks_anonymous
  type := h.tracks_type

theorem types (h : editor.TracksIds package ok inv next drops) (ds : List TypeDecl) (s : σ)
    (hok : ∀ x ∈ typesPlaces ds, ok x) (hs : inv [] s) :
    ∃ k, IdEffect package inv next drops .types [] ds s (editor.types ds s) k :=
  h.hereditary.types [] ds hok s hs

end Editor.TracksIds

theorem Editor.tracksIds_of_calls {editor : Editor σ} (package : String) (n : NodeId)
    (leave : ∀ d s, (editor.leaveType d s).1 = d)
    (call : ∀ {p c receiver args} s, args.length = c.args.length →
      KeepsCallId drops p c receiver args (editor.call { c with receiver, args } s).1) :
    editor.TracksIds package (fun _ => True) (fun _ _ => True) (fun _ => n) drops where
  visit _ _ := ⟨trivial, rfl⟩
  enterCall _ _ := ⟨trivial, rfl⟩
  call _ hlength := ⟨call _ hlength, trivial, rfl⟩
  enterType _ _ _ := ⟨trivial, rfl⟩
  leaveType d' _ _ :=
    ⟨[], 0, by rw [leave, TypeDecl.addMembers_nil], trivial, .nil n, rfl, fun _ => rfl⟩
  enterAnonymous _ _ _ := ⟨trivial, rfl⟩
  leaveAnonymous _ _ := ⟨trivial, rfl⟩

end FactoryLowering
