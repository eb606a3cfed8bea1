import FactoryLowering.Proofs.Tree.Site
import FactoryLowering.Proofs.Tree.Walk

/-! # The calls that an editor is handed

A call is handed to the editor when its receiver and its arguments are done. What state the editor
is in at that time can be seen from a record of the calls, kept beside the state. Keeping it changes
nothing, as is true of everything that an editor has in its state but does not look at. Each call of
the tree gets into the record once, and the invariant of the editor holds there for the path of the
call.
-/
namespace FactoryLowering

variable {σ τ α β : Type}

/-- A step on a large state that does to a part of it what another step does. -/
def Mirrors (part : τ → σ) (large : StateM τ α) (small : StateM σ α) : Prop :=
  ∀ w, ((large w).1, part (large w).2) = small (part w)

namespace Mirrors

variable {part : τ → σ} {large : StateM τ α} {small : StateM σ α}

theorem done (a : α) : Mirrors part (pure a : StateM τ α) (pure a) := fun _ => rfl

theorem bind {large' : α → StateM τ β} {small' : α → StateM σ β} (h : Mirrors part large small)
    (k : ∀ a, Mirrors part (large' a) (small' a)) :
    Mirrors part (large >>= large') (small >>= small') := by
  intro w
  have hsmall : (small >>= small') (part w) = small' (small (part w)).1 (small (part w)).2 := rfl
  rw [hsmall, ← h w]
  exact k (large w).1 (large w).2

end Mirrors

/-- An editor that has the state of another one in its own and does the same with it. -/
structure Editor.Extends (large : Editor τ) (small : Editor σ) (part : τ → σ) : Prop where
  visit : ∀ v, Mirrors part (large.visit v) (small.visit v)
  call : ∀ c, Mirrors part (large.call c) (small.call c)
  leaveType : ∀ d, Mirrors part (large.leaveType d) (small.leaveType d)
  leaveAnonymous : ∀ head ms,
    Mirrors part (large.leaveAnonymous head ms) (small.leaveAnonymous head ms)

namespace Editor.Extends

variable {large : Editor τ} {small : Editor σ} {part : τ → σ}

theorem tell (h : large.Extends small part) (vs : List Visit) :
    Mirrors part (large.tell vs) (small.tell vs) := by
  induction vs with
  | nil => exact .done ()
  | cons v vs ih => exact (h.visit v).bind fun _ => ih

theorem hereditary (h : large.Extends small part) : Hereditary fun K _ a =>
    Mirrors part (K.edit large a) (K.edit small a) where
  unit := .done ()
  pair _ ha hb := ha.bind fun a' => hb.bind fun b' => .done (a', b')
  node build own refs p a n ha := by
    rw [n.edit, n.edit]
    exact (h.tell (own a)).bind fun _ => ha.bind fun a' => .done (build a')
  call {p} c hr ha := by
    have hedit : ∀ {ρ : Type} (editor : Editor ρ),
        Kind.expr.edit editor (.call c) = editor.expr (.call c) := fun _ => rfl
    rw [hedit, hedit, Editor.expr_call, Editor.expr_call]
    refine (h.visit (.expr (.call c))).bind fun _ => (h.visit (.call c)).bind fun _ =>
      hr.bind fun receiver => ha.bind fun args => ?_
    exact (h.call { c with receiver, args }).bind fun new => .done (Expr.call new)
  anonymous {p head ms} hms := by
    refine (h.visit (.enterAnonymous head ms)).bind fun _ => hms.bind fun ms' => ?_
    exact (h.leaveAnonymous head ms').bind fun _ => .done ms'
  type {p site d} hd := by
    have hedit : ∀ {ρ : Type} (editor : Editor ρ),
        (Kind.typeDecl site).edit editor d = editor.typeDecl site d := fun _ => rfl
    rw [hedit, hedit, Editor.typeDecl_eq, Editor.typeDecl_eq]
    exact (h.visit (.enterType d site)).bind fun _ => hd.bind fun d' => h.leaveType d'

end Editor.Extends

/-- The same editor, with a record of the calls it is handed and of its state at these times. -/
def Editor.recorded (editor : Editor σ) : Editor (σ × List (Call × σ)) where
  visit v w := ((), ((editor.visit v w.1).2, w.2))
  call c w := ((editor.call c w.1).1, ((editor.call c w.1).2, w.2 ++ [(c, w.1)]))
  leaveType d w := ((editor.leaveType d w.1).1, ((editor.leaveType d w.1).2, w.2))
  leaveAnonymous head ms w := ((), ((editor.leaveAnonymous head ms w.1).2, w.2))

def Editor.handed (editor : Editor σ) (ds : List TypeDecl) (s : σ) : List (Call × σ) :=
  (editor.recorded.types ds (s, [])).2.2

theorem Editor.recorded_extends (editor : Editor σ) : editor.recorded.Extends editor Prod.fst :=
  ⟨fun _ _ => rfl, fun _ _ => rfl, fun _ _ => rfl, fun _ _ _ => rfl⟩

theorem Editor.recorded_types (editor : Editor σ) (ds : List TypeDecl) (s : σ) :
    editor.recorded.types ds (s, []) =
      ((editor.types ds s).1, ((editor.types ds s).2, editor.handed ds s)) := by
  have hsame : ((editor.recorded.types ds (s, [])).1, (editor.recorded.types ds (s, [])).2.1) =
    editor.types ds s := editor.recorded_extends.hereditary.types [] ds (s, [])
  rw [← hsame]
  rfl

/-- A record of the calls at some sites. A call comes after the calls in it, so the order is not
that of the source; its receiver and its arguments may have been changed by then. -/
def Records (inv : Path → σ → Prop) (xs : List Site) (record : List (Call × σ)) : Prop :=
  ∃ order : List Site, order.Perm xs ∧ List.Forall₂ (fun x entry =>
    (∃ receiver args, entry.1 = { x.call with receiver, args }) ∧ inv x.path entry.2) order record

namespace Records

variable {inv : Path → σ → Prop} {xs ys : List Site} {record record' : List (Call × σ)}

theorem nil : Records inv [] [] := ⟨[], .nil, .nil⟩

theorem append (h : Records inv xs record) (h' : Records inv ys record') :
    Records inv (xs ++ ys) (record ++ record') := by
  obtain ⟨order, hperm, hentries⟩ := h
  obtain ⟨order', hperm', hentries'⟩ := h'
  exact ⟨order ++ order', hperm.append hperm', List.rel_append hentries hentries'⟩

theorem call (h : Records inv xs record) {p : Path} {s : σ} (hs : inv p s) (c : Call)
    (receiver : Option Expr) (args : List Expr) :
    Records inv (⟨p, c⟩ :: xs) (record ++ [({ c with receiver, args }, s)]) := by
  obtain ⟨order, hperm, hentries⟩ := h
  refine ⟨order ++ [⟨p, c⟩], ?_, ?_⟩
  · exact (List.perm_append_singleton _ order).trans (hperm.cons _)
  · exact List.rel_append hentries (.cons ⟨⟨receiver, args, rfl⟩, hs⟩ .nil)

theorem mono {inv' : Path → σ → Prop} (hinv : ∀ {p s}, inv p s → inv' p s)
    (h : Records inv xs record) : Records inv' xs record := by
  obtain ⟨order, hperm, hentries⟩ := h
  exact ⟨order, hperm, hentries.imp fun _ _ hentry => ⟨hentry.1, hinv hentry.2⟩⟩

end Records

/-- What the record is longer by after some places. -/
def Recorded (inv : Path → σ → Prop) (xs : List Place) (before after : List (Call × σ)) : Prop :=
  ∃ record, after = before ++ record ∧ Records inv (xs.filterMap Place.site?) record

namespace Recorded

variable {inv : Path → σ → Prop} {p : Path} {v : Visit} {before : List (Call × σ)}

theorem nothing {xs : List Place} (h : xs.filterMap Place.site? = []) :
    Recorded inv xs before before := by
  refine ⟨[], (List.append_nil _).symm, ?_⟩
  rw [h]
  exact .nil

theorem quiet (h : v.Quiet) : Recorded inv [⟨p, v⟩] before before := by
  refine nothing ?_
  cases v <;> first | rfl | exact h.elim False.elim False.elim

end Recorded

/-- What an editor has to keep, it keeps also with a record, and the record is complete. -/
theorem Editor.Obeys.recorded {editor : Editor σ} {r : Rewriting} {ok : Place → Prop}
    {inv : Path → σ → Prop} {rel : Path → List Place → σ → σ → Prop}
    (h : editor.Obeys r ok inv rel) :
    editor.recorded.Obeys r ok (fun p w => inv p w.1)
      fun p xs w w' => rel p xs w.1 w'.1 ∧ Recorded inv xs w.2 w'.2 where
  refl hw := ⟨h.refl hw, .nothing rfl⟩
  trans {p xs ys w t u} hfirst hsecond := by
    obtain ⟨hrel, record, hafter, hrecord⟩ := hfirst
    obtain ⟨hrel', record', hafter', hrecord'⟩ := hsecond
    refine ⟨h.trans hrel hrel', record ++ record', ?_, ?_⟩
    · rw [hafter', hafter, List.append_assoc]
    · rw [List.filterMap_append]
      exact hrecord.append hrecord'
  visit {p v w} hv hw := by
    obtain ⟨hinv, hrel⟩ := h.visit hv hw
    exact ⟨hinv, hrel, .quiet (.inl hv)⟩
  skip hv hw := ⟨h.skip hv hw, .quiet (.inr hv)⟩
  enterCall hw := h.enterCall hw
  call {p c receiver args xs w t} hok hw hparts ht hreceiver hargs := by
    obtain ⟨hrel, record, hafter, hrecord⟩ := hparts
    obtain ⟨hcall, hinv, hrel'⟩ := h.call hok hw hrel ht hreceiver hargs
    refine ⟨hcall, hinv, hrel', record ++ [({ c with receiver, args }, t.1)], ?_, ?_⟩
    · have hentry : (editor.recorded.call { c with receiver, args } t).2.2 =
        t.2 ++ [({ c with receiver, args }, t.1)] := rfl
      rw [hentry, hafter, List.append_assoc]
      rfl
    · exact hrecord.call ht c receiver args
  enterType hok hw := h.enterType hok hw
  leaveType {p d d' site w t} hok hw hparts ht alike := by
    obtain ⟨hrel, hrecord⟩ := hparts
    obtain ⟨htype, hinv, hrel'⟩ := h.leaveType hok hw hrel ht alike
    have hsites : (locate p (d.visits site)).filterMap Place.site? =
        (locate (.type d site :: p) d.innerVisits).filterMap Place.site? := d.sites_visits p site
    refine ⟨htype, hinv, hrel', ?_⟩
    rw [Recorded, hsites]
    exact hrecord
  enterAnonymous hw := h.enterAnonymous hw
  leaveAnonymous {p head ms ms' w t} hw hparts ht heads := by
    obtain ⟨hrel, hrecord⟩ := hparts
    obtain ⟨hinv, hrel'⟩ := h.leaveAnonymous hw hrel ht heads
    refine ⟨hinv, hrel', ?_⟩
    have hsites := sites_anonymous p head ms
    rw [sites, locate_anonymous] at hsites
    rw [Recorded, hsites]
    exact hrecord

theorem Editor.Obeys.handed {editor : Editor σ} {r : Rewriting} {ok : Place → Prop}
    {inv : Path → σ → Prop} {rel : Path → List Place → σ → σ → Prop}
    (h : editor.Obeys r ok inv rel) {ds : List TypeDecl} (hok : ∀ x ∈ typesPlaces ds, ok x) {s : σ}
    (hs : inv [] s) : Records inv (typesSites ds) (editor.handed ds s) := by
  obtain ⟨_, _, _, record, hafter, hrecord⟩ := h.recorded.types ds hok (s, []) hs
  have hhanded : editor.handed ds s = record := hafter
  rw [hhanded]
  exact hrecord

end FactoryLowering
