import FactoryLowering.Proofs.FactoryHelpers.Spelling
import FactoryLowering.Proofs.FactoryHelpers.Undisturbed

/-! # What the helper pass reports

Entering and leaving come in pairs, so any part of a tree leaves the scopes as it found them, in
whatever state the walk comes to it. Each call of the factory is counted once, as changed or as
skipped. Calls that are skipped although they have a host are warned of: these are the calls of the
map factory with an odd number of arguments. The only other warning is that a method which serves in
place of a helper is not static. No part of this needs an assumption on identities.
-/
namespace FactoryLowering

def Warning.isCallKept : Warning → Bool
  | .callKept _ _ => true
  | _ => false

theorem Family.accepts_eq_false_iff {f : Family} {arity : Nat} :
    f.accepts arity = false ↔ f = .map ∧ arity % 2 = 1 := by
  cases f <;> simp [accepts, isKeyValue]

namespace FactoryHelpers

variable {f : Family} {spelledOut : List String} {package : String} {p : Path} {s t : State}

/-- States with the same open scopes, of which neither or both have failed. -/
structure Balanced (s t : State) : Prop where
  scopes : t.scopes = s.scopes
  failure : t.failure = s.failure

namespace Balanced

theorem refl (s : State) : Balanced s s := ⟨rfl, rfl⟩

theorem trans {u : State} (h : Balanced s t) (k : Balanced t u) : Balanced s u :=
  ⟨k.scopes.trans h.scopes, k.failure.trans h.failure⟩

theorem call (f : Family) (spelledOut : List String) (c : Call) (s : State) :
    Balanced s ((editor f spelledOut).call c s).2 := by
  obtain ⟨_, _, _, hscopes, hfailure⟩ := call_frame f spelledOut c s
  exact ⟨hscopes, hfailure⟩

theorem provide (f : Family) (spelledOut : List String) (d : TypeDecl) (a : Nat) (s : State) :
    Balanced s (provide f spelledOut d a s).2 := by
  unfold FactoryHelpers.provide
  split
  · split
    · exact ⟨rfl, rfl⟩
    · exact ⟨rfl, rfl⟩
  · split
    · exact ⟨rfl, rfl⟩
    · exact ⟨rfl, rfl⟩

theorem provideAll (f : Family) (spelledOut : List String) (arities : List Nat) (d : TypeDecl)
    (s : State) : Balanced s (provideAll f spelledOut d arities s).2 := by
  induction arities generalizing d s with
  | nil => exact refl s
  | cons a rest ih => exact (provide f spelledOut d a s).trans (ih _ _)

theorem leaveType {d d' : TypeDecl} {site : TypeSite} (h : Balanced (s.enter d site) t) :
    Balanced s ((editor f spelledOut).leaveType d' t).2 := by
  obtain ⟨scope, hleave⟩ : ∃ scope, t.scopes.leave? = some (scope, s.scopes) := by
    rw [h.scopes]
    exact ⟨_, rfl⟩
  have heq : (editor f spelledOut).leaveType d' t =
      FactoryHelpers.provideAll f spelledOut d' (t.needed.take scope.id).1
        { t with scopes := s.scopes, needed := (t.needed.take scope.id).2 } := by
    simp only [editor, FactoryHelpers.leaveType, hleave]
  have hprovided := provideAll f spelledOut (t.needed.take scope.id).1 d'
    { t with scopes := s.scopes, needed := (t.needed.take scope.id).2 }
  rw [heq]
  exact ⟨hprovided.scopes, hprovided.failure.trans h.failure⟩

theorem leaveAnonymous {head : ClassHead} (h : Balanced (s.enterAnonymous head) t) :
    Balanced s (FactoryHelpers.leaveAnonymous t).2 := by
  obtain ⟨scope, hleave⟩ : ∃ scope, t.scopes.leave? = some (scope, s.scopes) := by
    rw [h.scopes]
    exact ⟨_, rfl⟩
  have heq : (FactoryHelpers.leaveAnonymous t).2 = { t with scopes := s.scopes } := by
    simp only [FactoryHelpers.leaveAnonymous, modify, modifyGet, MonadStateOf.modifyGet,
      StateT.modifyGet, pure, hleave]
  rw [heq]
  exact ⟨rfl, h.failure⟩

end Balanced

/-- The walk leaves the scopes as it found them, whatever it walks over and from whatever state. -/
theorem edit_balanced (f : Family) (spelledOut : List String) :
    Hereditary fun K _ a => ∀ s, Balanced s (K.edit (editor f spelledOut) a s).2 where
  unit s := .refl s
  pair _ ha hb s := (ha s).trans (hb _)
  node build own refs _ _ n ha s := by
    rw [edit_node n]
    exact ha s
  call {p} c hr ha s := by
    rcases hreceiver : Kind.exprOption.edit (editor f spelledOut) c.receiver s with ⟨r, s₁⟩
    rcases hargs : Kind.exprList.edit (editor f spelledOut) c.args s₁ with ⟨as, s₂⟩
    have hs₁ := hr s
    rw [hreceiver] at hs₁
    have hs₂ := ha s₁
    rw [hargs] at hs₂
    rw [edit_call hreceiver hargs]
    exact (hs₁.trans hs₂).trans (.call f spelledOut _ s₂)
  anonymous hms s := (hms (s.enterAnonymous _)).leaveAnonymous
  type {p site d} hd s := by
    rw [edit_typeDecl]
    exact (hd (s.enter d site)).leaveType

theorem body_balanced (f : Family) (spelledOut : List String) (d : TypeDecl) (s : State) :
    Balanced s ((editor f spelledOut).body d s).2 := by
  have h := edit_balanced f spelledOut
  cases d with
  | classDecl head ms => exact h.memberList ms [] s
  | interfaceDecl head ms => exact h.memberList ms [] s
  | enumDecl head constants ms =>
    exact (h.constantList constants [] s).trans (h.memberList ms [] _)

/-- Whether a call is skipped with a warning: it is a call of the map factory with an odd number of
arguments, and it has a host. -/
def refuses (f : Family) (package : String) (p : Path) (c : Call) : Bool :=
  f == .map && f.pattern.isMatch c && c.arity % 2 == 1 && hostDepth package p != 0

theorem refuses_iff {c : Call} : refuses f package p c = true ↔
    f.pattern.isMatch c = true ∧ f.accepts c.arity = false ∧ hostDepth package p ≠ 0 := by
  simp only [refuses, Bool.and_eq_true, beq_iff_eq, bne_iff_ne, Family.accepts_eq_false_iff]
  constructor
  · rintro ⟨⟨⟨hmap, hmatch⟩, hodd⟩, hhost⟩
    exact ⟨hmatch, ⟨hmap, hodd⟩, hhost⟩
  · rintro ⟨hmatch, ⟨hmap, hodd⟩, hhost⟩
    exact ⟨⟨⟨hmap, hmatch⟩, hodd⟩, hhost⟩

def refusal (f : Family) (c : Call) : Warning :=
  .callKept c.id (.call (.unpaired f.helperName c.arity))

def refusals (f : Family) (package : String) (xs : List Site) : List Warning :=
  (xs.filter fun x => refuses f package x.path x.call).map fun x => refusal f x.call

theorem refusals_append (f : Family) (package : String) (xs ys : List Site) :
    refusals f package (xs ++ ys) = refusals f package xs ++ refusals f package ys := by
  simp [refusals]

theorem refusals_of_refuses {x : Site} (h : refuses f package x.path x.call = true) :
    refusals f package [x] = [refusal f x.call] := by
  simp [refusals, h]

theorem refusals_of_not_refuses {x : Site} (h : ¬ refuses f package x.path x.call = true) :
    refusals f package [x] = [] := by
  simp [refusals, h]

/-- A call is warned of if it is refused. That its method is unknown or not that of a class cannot
be the reason, because then it would not be a call of the factory. -/
theorem call_warnings (hs : s.scopes = scopesAt package p) (c : Call) :
    ((editor f spelledOut).call c s).2.warnings = s.warnings ++ refusals f package [⟨p, c⟩] := by
  have hhost : s.host? = hostAt package p := by rw [State.host?, hs, hostAt]
  by_cases hr : refuses f package p c = true
  · obtain ⟨hm, ha, hdepth⟩ := refuses_iff.mp hr
    obtain ⟨host, hat⟩ := Option.ne_none_iff_exists'.mp (mt hostAt_eq_none_iff.mp hdepth)
    rw [refusals_of_refuses hr]
    simp only [editor, hm, if_true, lowerCall, hhost, hat, helperMethod, ha, Bool.not_false,
      State.warn, refusal]
  · rw [refusals_of_not_refuses hr, List.append_nil]
    rcases call_cases hs c with ⟨_, host, name, _, heq⟩ | ⟨hl, hm, _⟩ | ⟨_, _, heq⟩
    · rw [heq]
    · have hnone : hostAt package p = none := by
        rw [hostAt_eq_none_iff]
        by_contra hdepth
        have ha : f.accepts c.arity = false := by
          simpa [lowers, hm, hdepth] using hl
        exact hr (refuses_iff.mpr ⟨hm, ha, hdepth⟩)
      simp only [editor, hm, if_true, lowerCall, hhost, hnone]
    · rw [heq]

/-- The notice that a method which is not static serves in place of a helper. -/
def IsInstanceNotice (f : Family) (w : Warning) : Prop :=
  ∃ label arity, w = .instanceHelper label f.helperName arity

theorem provide_warnings {a : Nat} (ha : f.accepts a = true) (spelledOut : List String)
    (d : TypeDecl) (s : State) : ∃ new,
    (provide f spelledOut d a s).2.warnings = s.warnings ++ new ∧
      ∀ w ∈ new, IsInstanceNotice f w := by
  unfold provide
  split
  · split
    · exact ⟨[], (List.append_nil _).symm, List.forall_mem_nil _⟩
    · exact ⟨[_], rfl, List.forall_mem_singleton.mpr ⟨_, _, rfl⟩⟩
  · simp only [Family.helper?_eq, ha, if_true]
    exact ⟨[], (List.append_nil _).symm, List.forall_mem_nil _⟩

theorem provideAll_warnings {arities : List Nat} (ha : ∀ a ∈ arities, f.accepts a = true)
    (spelledOut : List String) (d : TypeDecl) (s : State) : ∃ new,
    (provideAll f spelledOut d arities s).2.warnings = s.warnings ++ new ∧
      ∀ w ∈ new, IsInstanceNotice f w := by
  induction arities generalizing d s with
  | nil => exact ⟨[], (List.append_nil _).symm, List.forall_mem_nil _⟩
  | cons a rest ih =>
    obtain ⟨hfirst, hrest⟩ := List.forall_mem_cons.mp ha
    obtain ⟨first, heq, hnotices⟩ := provide_warnings hfirst spelledOut d s
    obtain ⟨later, heq', hnotices'⟩ :=
      ih hrest (provide f spelledOut d a s).1 (provide f spelledOut d a s).2
    have hstep : provideAll f spelledOut d (a :: rest) s =
        provideAll f spelledOut (provide f spelledOut d a s).1 rest
          (provide f spelledOut d a s).2 := rfl
    refine ⟨first ++ later, ?_, List.forall_mem_append.mpr ⟨hnotices, hnotices'⟩⟩
    rw [hstep, heq', heq, List.append_assoc]

/-- Warnings that call sites give rise to: one for each call that is refused, in some order, and
notices. -/
structure Warned (f : Family) (package : String) (xs : List Site) (ws : List Warning) : Prop where
  kept : (ws.filter Warning.isCallKept).Perm (refusals f package xs)
  others : ∀ w ∈ ws, w.isCallKept = true ∨ IsInstanceNotice f w

theorem Warned.append {xs ys : List Site} {ws vs : List Warning} (h : Warned f package xs ws)
    (k : Warned f package ys vs) : Warned f package (xs ++ ys) (ws ++ vs) := by
  refine ⟨?_, List.forall_mem_append.mpr ⟨h.others, k.others⟩⟩
  rw [List.filter_append, refusals_append]
  exact h.kept.append k.kept

theorem Warned.of_notices {ws : List Warning} (h : ∀ w ∈ ws, IsInstanceNotice f w) :
    Warned f package [] ws := by
  refine ⟨?_, fun w hw => .inr (h w hw)⟩
  have hnone : ws.filter Warning.isCallKept = [] := by
    refine List.filter_eq_nil_iff.mpr fun w hw => ?_
    obtain ⟨label, arity, rfl⟩ := h w hw
    exact Bool.false_ne_true
  rw [hnone]
  exact .refl _

theorem warned_refusals (f : Family) (package : String) (xs : List Site) :
    Warned f package xs (refusals f package xs) := by
  have hkept : ∀ w ∈ refusals f package xs, w.isCallKept = true := by
    intro w hw
    obtain ⟨x, _, rfl⟩ := List.mem_map.mp hw
    rfl
  refine ⟨?_, fun w hw => .inl (hkept w hw)⟩
  rw [List.filter_eq_self.mpr hkept]

/-- What passing some call sites adds to the numbers and to the warnings. -/
structure Accounts (f : Family) (package : String) (xs : List Site) (s t : State) : Prop where
  changed : t.stats.callsChanged =
    s.stats.callsChanged + xs.countP fun x => lowers f package x.path x.call
  skipped : t.stats.callsSkipped = s.stats.callsSkipped +
    xs.countP fun x => f.pattern.isMatch x.call && !lowers f package x.path x.call
  warned : ∃ new, t.warnings = s.warnings ++ new ∧ Warned f package xs new

namespace Accounts

variable {xs ys : List Site}

theorem refl (s : State) : Accounts f package [] s s :=
  ⟨rfl, rfl, [], (List.append_nil _).symm, warned_refusals f package []⟩

theorem trans {u : State} (h : Accounts f package xs s t) (k : Accounts f package ys t u) :
    Accounts f package (xs ++ ys) s u := by
  refine ⟨?_, ?_, ?_⟩
  · rw [k.changed, h.changed, List.countP_append, Nat.add_assoc]
  · rw [k.skipped, h.skipped, List.countP_append, Nat.add_assoc]
  · obtain ⟨new, hnew, hwarned⟩ := h.warned
    obtain ⟨later, hlater, hwarned'⟩ := k.warned
    exact ⟨new ++ later, by rw [hlater, hnew, List.append_assoc], hwarned.append hwarned'⟩

theorem perm (h : Accounts f package xs s t) (hxs : xs.Perm ys) : Accounts f package ys s t := by
  obtain ⟨new, hnew, hwarned⟩ := h.warned
  have hrefusals : (refusals f package xs).Perm (refusals f package ys) :=
    (hxs.filter _).map _
  refine ⟨?_, ?_, new, hnew, hwarned.kept.trans hrefusals, hwarned.others⟩
  · rw [h.changed, hxs.countP_eq]
  · rw [h.skipped, hxs.countP_eq]

theorem call (hs : s.scopes = scopesAt package p) (c : Call) :
    Accounts f package [⟨p, c⟩] s ((editor f spelledOut).call c s).2 := by
  have hwarned : ((editor f spelledOut).call c s).2.warnings = _ := call_warnings hs c
  refine ⟨?_, ?_, _, hwarned, warned_refusals f package _⟩
  · rcases call_cases hs c with ⟨hl, _, _, _, heq⟩ | ⟨hl, _, _, heq⟩ | ⟨hl, _, heq⟩ <;>
      rw [heq] <;> simp [hl]
  · rcases call_cases hs c with ⟨hl, _, _, _, heq⟩ | ⟨hl, hm, _, heq⟩ | ⟨_, hm, heq⟩ <;> rw [heq]
    · simp [hl]
    · simp [hl, hm]
    · simp [hm]

theorem of_edited {c : Call} {receiver : Option Expr} {args : List Expr}
    (hargs : args.length = c.args.length)
    (h : Accounts f package [⟨p, { c with receiver, args }⟩] s t) :
    Accounts f package [⟨p, c⟩] s t := by
  have harity : Call.arity { c with receiver, args } = c.arity := hargs
  have hmatch : f.pattern.isMatch { c with receiver, args } = f.pattern.isMatch c := rfl
  have hlowers : lowers f package p { c with receiver, args } = lowers f package p c :=
    lowers_congr rfl hargs
  have hrefuses : refuses f package p { c with receiver, args } = refuses f package p c := by
    rw [refuses, harity, hmatch, refuses]
  have hrefusals : refusals f package [⟨p, { c with receiver, args }⟩] =
      refusals f package [⟨p, c⟩] := by
    by_cases hr : refuses f package p c = true
    · rw [refusals_of_refuses (hrefuses.trans hr), refusals_of_refuses hr, refusal, harity, refusal]
    · rw [refusals_of_not_refuses (hrefuses.symm ▸ hr), refusals_of_not_refuses hr]
  obtain ⟨hchanged, hskipped, new, hnew, hkept, hothers⟩ := h
  refine ⟨?_, ?_, new, hnew, hrefusals ▸ hkept, hothers⟩
  · simpa [hlowers] using hchanged
  · simpa [hlowers, hmatch] using hskipped

theorem leaveType {d d' : TypeDecl} {site : TypeSite} (ht : Open f package (.type d site :: p) t)
    (h : Accounts f package xs s t) :
    Accounts f package xs s ((editor f spelledOut).leaveType d' t).2 := by
  have hp := ht.provides spelledOut d'
  have haccepted : ∀ a ∈ t.needed.arities d.id, f.accepts a = true :=
    fun a ha => ht.accepted _ (ArityTable.mem_arities.mp ha)
  obtain ⟨new, hnew, hnotices⟩ := provideAll_warnings haccepted spelledOut d'
    { t with scopes := scopesAt package p, needed := (t.needed.take d.id).2 }
  rw [← leaveType_eq ht.scopes] at hnew
  have hleave : Accounts f package [] t ((editor f spelledOut).leaveType d' t).2 :=
    ⟨hp.changed, hp.skipped, new, hnew, .of_notices hnotices⟩
  have hboth := h.trans hleave
  rwa [List.append_nil] at hboth

theorem leaveAnonymous {head : ClassHead} {ms : List Member}
    (ht : Open f package (.anonymous head ms :: p) t) (h : Accounts f package xs s t) :
    Accounts f package xs s (FactoryHelpers.leaveAnonymous t).2 := by
  rw [leaveAnonymous_eq ht.scopes]
  exact ⟨h.changed, h.skipped, h.warned⟩

end Accounts

theorem editor_obeys_account (f : Family) (spelledOut : List String) (package : String) :
    (editor f spelledOut).Obeys (lowering f spelledOut package) (fun _ => True) (Open f package)
      fun _ xs s t => Accounts f package (xs.filterMap Place.site?) s t where
  refl _ := .refl _
  trans h k := by
    rw [List.filterMap_append]
    exact h.trans k
  visit {p v s} hv hs := by
    cases v <;> first | exact hv.elim | exact ⟨hs, .refl s⟩
  skip {p v s} hv _ := by
    cases v <;> first | exact hv.elim | exact .refl s
  enterCall hs := hs
  call {p c receiver args xs s t} _ _ hrel ht _ hargs := by
    have hcall : Accounts f package [⟨p, c⟩] t
        ((editor f spelledOut).call { c with receiver, args } t).2 :=
      .of_edited (hargs []).length_eq (.call ht.scopes _)
    -- the call itself comes after what stands in it
    have hall := (hrel.trans hcall).perm List.perm_append_comm
    exact ⟨fun _ => call_eq_lowerAt ht.scopes _, ht.call _, hall⟩
  enterType _ hs := hs.enterType
  leaveType {p d d' site s t} _ _ hrel ht _ := by
    obtain ⟨ms, hnew, hms⟩ := (ht.provides spelledOut d').helpers
    refine ⟨fun q => ⟨_, ms, hms, hnew⟩, ht.leaveType d', ?_⟩
    have hsites : (locate p (d.visits site)).filterMap Place.site? = _ :=
      TypeDecl.sites_visits p site d
    rw [hsites]
    exact .leaveType ht ⟨hrel.changed, hrel.skipped, hrel.warned⟩
  enterAnonymous hs := hs.enterAnonymous
  leaveAnonymous {p head ms ms' s t} _ hrel ht _ := by
    have hsites : (locate p (.enterAnonymous head ms ::
        (Member.visitsList ms ++ [.leaveAnonymous head ms]))).filterMap Place.site? = _ :=
      sites_anonymous p head ms
    rw [← locate_anonymous, hsites]
    exact ⟨ht.leaveAnonymous, .leaveAnonymous ht ⟨hrel.changed, hrel.skipped, hrel.warned⟩⟩

theorem walk_account (f : Family) (u : CompilationUnit) :
    Accounts f u.packageName (typesSites u.types)
      { scopes := { package := u.packageName }, nextId := u.nextId } (walk f u).2 :=
  ((editor_obeys_account f (f.shadowed u) u.packageName).types u.types (fun _ _ => trivial) _
    (open_start f u)).2.2

/-- The names of all imports that the walk asks for are free, so the import edits say nothing. -/
theorem run_warnings (f : Family) (u : CompilationUnit) (log : ChangeLog) :
    (FactoryHelpers.run f u log).warnings = (walk f u).2.warnings := by
  have hnone : ((walkedUnit f u).addImports (requested f u)).warnings = [] :=
    CompilationUnit.addImports_warnings_of_free (nodup_simpleNames_requested f u)
      fun _ hfqn => importsOther_of_mem_requested hfqn
  rw [requested] at hnone
  rw [run_eq, ImportEdits.apply_additions (walk_requests f u).removals, hnone, List.append_nil]

/-- What is known of a run on any unit. The walk restores its scopes at every type and at every
anonymous class, in whatever state it comes to it. In the end no scope is open and no helper is
asked for. The run succeeds, and it warns of refused calls and of methods that are not static, and
of nothing else. -/
structure RunsThrough (f : Family) (u : CompilationUnit) (log : ChangeLog) : Prop where
  types : ∀ d site s,
    Balanced (s.enter d site) ((editor f (f.shadowed u)).body d (s.enter d site)).2 ∧
      Balanced s ((editor f (f.shadowed u)).typeDecl site d s).2
  anonymous : ∀ head ms s,
    Balanced (s.enterAnonymous head)
        ((editor f (f.shadowed u)).memberList ms (s.enterAnonymous head)).2 ∧
      Balanced s ((editor f (f.shadowed u)).anonymous head ms s).2
  closed : (walk f u).2.scopes.frames = []
  served : (walk f u).2.needed.isEmpty = true
  succeeds : ∃ stats, (FactoryHelpers.run f u log).result = .ok stats
  warned : Warned f u.packageName (typesSites u.types) (FactoryHelpers.run f u log).warnings

theorem runsThrough (f : Family) (u : CompilationUnit) (log : ChangeLog) : RunsThrough f u log := by
  have hopen := (walk_lowering f u).2
  have hmembers := fun ms => (edit_balanced f (f.shadowed u)).memberList ms []
  refine ⟨fun d site s => ⟨body_balanced f _ d _, ?_⟩, fun head ms s => ⟨hmembers ms _, ?_⟩,
    ?_, ?_, ⟨_, run_result f u log⟩, ?_⟩
  · exact (edit_balanced f (f.shadowed u)).typeDecl site d [] s
  · exact (hmembers ms (s.enterAnonymous head)).leaveAnonymous
  · rw [hopen.scopes]
    rfl
  · rw [ArityTable.isEmpty, hopen.needed_eq]
    rfl
  · obtain ⟨new, hnew, hwarned⟩ := (walk_account f u).warned
    rw [run_warnings, hnew]
    exact hwarned

end FactoryHelpers

end FactoryLowering
