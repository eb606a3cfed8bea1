import FactoryLowering.Proofs.FactoryHelpers.Account
import FactoryLowering.Proofs.FactoryHelpers.Idempotence

/-! # What the helper pass does, and nothing else

The pass does two things at once: it lowers calls on the way and adds helpers to types. Its outcome
is taken apart into a tree in which calls are lowered and nothing else is different, and helpers
that come after the members of that tree. The receiver of a lowered call is dropped together with
the calls in it. So the factory calls that the outcome still holds are those that were not dropped
in this manner and that could not be lowered where they stood.
-/
namespace FactoryLowering.FactoryHelpers

variable {f : Family} {spelledOut : List String} {package : String} {p q : Path}

/-- A factory call with a host and an arity that has a helper loses its receiver and gets the name
of the helper; it is bound to the helper of the host, for the type parameters that the factory had.
Identity, span and arguments are kept. Every other call is kept as a whole, and so is every type. -/
def callsLowered (f : Family) (package : String) : Rewriting where
  call p _ old c new :=
    (lowers f package p old = true ∧ ∃ id host params, hostAt package p = some (id, host) ∧
      old.method = some { owner := .reference f.pattern.owner params, name := f.pattern.name } ∧
      new = { c with
        receiver := none
        name := f.helperName
        method := some { owner := .reference host params, name := f.helperName } }) ∨
    lowers f package p old = false ∧ new = c
  type _ _ _ _ d new := new = d

def helpersAdded (f : Family) (spelledOut : List String) : Rewriting where
  call _ _ _ c new := new = c
  type _ _ _ _ d new := ∃ arities ms, List.Forall₂ (f.IsHelper spelledOut) arities ms ∧
    new = d.addMembers (ms.map .method)

theorem lowerAt_lowers_call {c : Call} {receiver : Option Expr} {args : List Expr}
    (hargs : args.length = c.args.length) :
    (callsLowered f package).call p q c { c with receiver, args }
      (lowerAt f package p { c with receiver, args }) := by
  have hsame : lowers f package p { c with receiver, args } = lowers f package p c :=
    lowers_congr rfl hargs
  by_cases hl : lowers f package p c = true
  · left
    obtain ⟨id, host, hat, heq⟩ := exists_host_of_lowers (hsame.trans hl)
    have hmatch : f.pattern.isMatch c = true := by
      simp only [lowers, Bool.and_eq_true] at hl
      exact hl.1.1
    exact ⟨hl, id, host, c.ownerParams, hat, MethodPattern.method_of_isMatch hmatch, heq⟩
  · have hkept := Bool.eq_false_iff.mpr hl
    exact .inr ⟨hkept, lowerAt_of_not_lowers (hsame.trans hkept)⟩

/-- Between a call that is lowered before helpers are added to what it holds and one that is lowered
afterwards, there is no difference besides what it holds. -/
theorem becomes_helpersAdded_lowerAt {c : Call} {receiver receiver' : Option Expr}
    {args args' : List Expr}
    (hreceiver : Expr.BecomesOption (helpersAdded f spelledOut) p q receiver receiver')
    (hargs : Expr.BecomesList (helpersAdded f spelledOut) p q args args') (outer : Path) :
    (Expr.call (lowerAt f package outer { c with receiver, args })).Becomes
      (helpersAdded f spelledOut) p q
      (.call (lowerAt f package outer { c with receiver := receiver', args := args' })) := by
  have hsame : lowers f package outer { c with receiver := receiver', args := args' } =
      lowers f package outer { c with receiver, args } :=
    lowers_congr (c := { c with receiver, args }) rfl hargs.length_eq
  by_cases hl : lowers f package outer { c with receiver, args } = true
  · obtain ⟨_, host, hat, heq⟩ := exists_host_of_lowers hl
    obtain ⟨_, host', hat', heq'⟩ := exists_host_of_lowers (hsame.trans hl)
    obtain ⟨_, rfl⟩ := Prod.ext_iff.mp (Option.some.inj (hat.symm.trans hat'))
    rw [heq, heq']
    refine Expr.becomes_call.mpr ⟨none, args', _, ?_, hargs, rfl, rfl⟩
    rw [lowered, Expr.BecomesOption]
  · have hkept := Bool.eq_false_iff.mpr hl
    rw [lowerAt_of_not_lowers hkept, lowerAt_of_not_lowers (hsame.trans hkept)]
    exact Expr.becomes_call.mpr ⟨receiver', args', _, hreceiver, hargs, rfl, rfl⟩

/-- Lowering with helpers is lowering without them, and then adding them. -/
theorem lowering_factors (f : Family) (spelledOut : List String) (package : String) :
    Hereditary fun K p a => ∀ q new, K.becomes (lowering f spelledOut package) p q a new →
      ∃ bare, (∀ q, K.becomes (callsLowered f package) p q a bare) ∧
        ∀ p q, K.becomes (helpersAdded f spelledOut) p q bare new where
  unit _ _ _ := ⟨(), fun _ => trivial, fun _ _ => trivial⟩
  pair ha hb hc q new h := by
    obtain ⟨a, hlow, hadd⟩ := hb q _ h.1
    obtain ⟨b, hlow', hadd'⟩ := hc q _ h.2
    exact ⟨(a, b), fun q => ⟨hlow q, hlow' q⟩, fun p q => ⟨hadd p q, hadd' p q⟩⟩
  node build own refs _ _ n ha q _ h := by
    obtain ⟨a', ha', rfl⟩ := n.becomes.mp h
    obtain ⟨bare, hlow, hadd⟩ := ha q a' ha'
    refine ⟨build bare, fun q => n.becomes.mpr ⟨bare, hlow q, rfl⟩, fun p q => ?_⟩
    exact n.becomes.mpr ⟨a', hadd p q, rfl⟩
  call {p} c hr ha q _ h := by
    obtain ⟨receiver', args', _, hreceiver, hargs, rfl, rfl⟩ := Expr.becomes_call.mp h
    obtain ⟨receiver, hlow, hadd⟩ := hr q receiver' hreceiver
    obtain ⟨args, hlow', hadd'⟩ := ha q args' hargs
    have hlength : args.length = c.args.length := Expr.BecomesList.length_eq (hlow' q)
    refine ⟨.call (lowerAt f package p { c with receiver, args }), fun q => ?_, fun p' q => ?_⟩
    · exact Expr.becomes_call.mpr
        ⟨receiver, args, _, hlow q, hlow' q, lowerAt_lowers_call hlength, rfl⟩
    · exact becomes_helpersAdded_lowerAt (hadd p' q) (hadd' p' q) p
  anonymous hms q new h := by
    obtain ⟨bare, hlow, hadd⟩ := hms _ new h
    exact ⟨bare, fun q => hlow _, fun p q => hadd _ _⟩
  type {p site d} hd q new h := by
    obtain ⟨d', hbody, arities, ms, hms, rfl⟩ := TypeDecl.becomes_iff.mp h
    obtain ⟨bare, hlow, hadd⟩ := hd _ d' hbody
    refine ⟨bare, fun q => TypeDecl.becomes_iff.mpr ⟨bare, hlow _, rfl⟩, fun p q => ?_⟩
    exact TypeDecl.becomes_iff.mpr ⟨d', hadd _ _, arities, ms, hms, rfl⟩

/-- The call sites that are left when the receivers of lowered calls are dropped, after so many
sites that are dropped already. The calls in the receiver of a call come right after it. -/
def surviving (f : Family) (package : String) : Nat → List Site → List Site
  | _, [] => []
  | dropped + 1, _ :: xs => surviving f package dropped xs
  | 0, x :: xs =>
    x :: surviving f package
      (if lowers f package x.path x.call then (callsOf (Expr.visitsOption x.call.receiver)).length
        else 0) xs

theorem surviving_append_of_length (xs ys : List Site) :
    surviving f package xs.length (xs ++ ys) = surviving f package 0 ys := by
  induction xs with
  | nil => rfl
  | cons x xs ih => exact ih

theorem length_sites (p : Path) (vs : List Visit) : (sites p vs).length = (callsOf vs).length := by
  rw [← placeCalls_locate p vs, placeCalls, List.length_map, sites]

/-- Whether a call site is one of the factory that cannot be lowered: it has no host, or it is a map
made from an odd number of arguments. -/
def isStuck (f : Family) (package : String) (x : Site) : Bool :=
  f.pattern.isMatch x.call &&
    (hostDepth package x.path == 0 || f == .map && x.call.arity % 2 == 1)

theorem isStuck_eq (x : Site) :
    isStuck f package x = (f.pattern.isMatch x.call && !lowers f package x.path x.call) := by
  have haccepts : (f == .map && x.call.arity % 2 == 1) = !f.accepts x.call.arity := by
    cases ha : f.accepts x.call.arity with
    | false => simpa using Family.accepts_eq_false_iff.mp ha
    | true =>
      rw [Bool.not_true, Bool.eq_false_iff]
      intro hodd
      have hnot : f.accepts x.call.arity = false :=
        Family.accepts_eq_false_iff.mpr (by simpa using hodd)
      rw [ha] at hnot
      cases hnot
  have hhost : (hostDepth package x.path == 0) = !(hostDepth package x.path != 0) := by simp [bne]
  rw [isStuck, lowers, haccepts, hhost]
  cases f.pattern.isMatch x.call <;> cases f.accepts x.call.arity <;>
    cases hostDepth package x.path != 0 <;> rfl

/-- A call site and what has become of it: only receiver and arguments may be different, though not
the number of arguments, and the types around it are the same. -/
structure SameSite (package : String) (x y : Site) : Prop where
  id : y.call.id = x.call.id
  name : y.call.name = x.call.name
  method : y.call.method = x.call.method
  span : y.call.span = x.call.span
  arity : y.call.arity = x.call.arity
  scopes : scopesAt package y.path = scopesAt package x.path

/-- The factory calls after a rewriting are those before it that are neither dropped nor lowered. -/
structure Leaves (f : Family) (package : String) (xs ys : List Site) : Prop where
  /-- No call outside drops a call among the sites, nor the other way round. -/
  apart : ∀ zs, surviving f package 0 (xs ++ zs) =
    surviving f package 0 xs ++ surviving f package 0 zs
  kept : List.Forall₂ (SameSite package) ((surviving f package 0 xs).filter (isStuck f package))
    (ys.filter fun y => f.pattern.isMatch y.call)

namespace Leaves

variable {xs xs' ys ys' : List Site}

theorem nil : Leaves f package [] [] := ⟨fun _ => rfl, .nil⟩

theorem append (h : Leaves f package xs xs') (k : Leaves f package ys ys') :
    Leaves f package (xs ++ ys) (xs' ++ ys') := by
  constructor
  · intro zs
    rw [List.append_assoc, h.apart, k.apart, h.apart, List.append_assoc]
  · rw [h.apart, List.filter_append, List.filter_append]
    exact List.rel_append h.kept k.kept

variable {c : Call} {receiver : Option Expr} {args : List Expr}

theorem callLowered (hl : lowers f package p c = true)
    (ha : Leaves f package (sites p (Expr.visitsList c.args)) (sites q (Expr.visitsList args)))
    (host : String) :
    Leaves f package
      (⟨p, c⟩ :: (sites p (Expr.visitsOption c.receiver) ++ sites p (Expr.visitsList c.args)))
      (⟨q, lowered f host { c with receiver, args }⟩ :: sites q (Expr.visitsList args)) := by
  have hdrop : ∀ zs, surviving f package 0 (⟨p, c⟩ ::
      (sites p (Expr.visitsOption c.receiver) ++ zs)) = ⟨p, c⟩ :: surviving f package 0 zs := by
    intro zs
    rw [surviving, if_pos hl, ← length_sites p, surviving_append_of_length]
  constructor
  · intro zs
    rw [List.cons_append, List.append_assoc, hdrop, hdrop, ha.apart, List.cons_append]
  · have hstuck : isStuck f package ⟨p, c⟩ = false := by
      rw [isStuck_eq, hl, Bool.not_true, Bool.and_false]
    have hmatch : f.pattern.isMatch (lowered f host { c with receiver, args }) = false :=
      isMatch_lowered f f host _
    rw [hdrop, List.filter_cons_of_neg (by simp [hstuck]),
      List.filter_cons_of_neg (by simp [hmatch])]
    exact ha.kept

theorem callKept (hl : lowers f package p c = false)
    (hpq : scopesAt package q = scopesAt package p) (hargs : args.length = c.args.length) :
    Leaves f package [⟨p, c⟩] [⟨q, { c with receiver, args }⟩] := by
  have hsurviving : ∀ zs, surviving f package 0 (⟨p, c⟩ :: zs) =
      ⟨p, c⟩ :: surviving f package 0 zs := by
    intro zs
    simp [surviving, hl]
  constructor
  · intro zs
    rw [List.singleton_append, hsurviving, hsurviving]
    rfl
  · have hmatch : f.pattern.isMatch { c with receiver, args } = f.pattern.isMatch c := rfl
    have hstuck : isStuck f package ⟨p, c⟩ = f.pattern.isMatch c := by
      rw [isStuck_eq, hl, Bool.not_false, Bool.and_true]
    have hpair : SameSite package ⟨p, c⟩ ⟨q, { c with receiver, args }⟩ :=
      ⟨rfl, rfl, rfl, rfl, hargs, hpq⟩
    rw [hsurviving, List.filter_cons, List.filter_cons, hstuck, hmatch]
    split
    · exact .cons hpair .nil
    · exact .nil

theorem call {new : Call} (hpq : scopesAt package q = scopesAt package p)
    (hargs : args.length = c.args.length)
    (hr : Leaves f package (sites p (Expr.visitsOption c.receiver))
      (sites q (Expr.visitsOption receiver)))
    (ha : Leaves f package (sites p (Expr.visitsList c.args)) (sites q (Expr.visitsList args)))
    (hnew : new = lowerAt f package p { c with receiver, args }) :
    Leaves f package
      (⟨p, c⟩ :: (sites p (Expr.visitsOption c.receiver) ++ sites p (Expr.visitsList c.args)))
      (⟨q, new⟩ :: (sites q (Expr.visitsOption new.receiver) ++
        sites q (Expr.visitsList new.args))) := by
  have hsame : lowers f package p { c with receiver, args } = lowers f package p c :=
    lowers_congr rfl hargs
  by_cases hl : lowers f package p c = true
  · obtain ⟨id, host, _, heq⟩ := exists_host_of_lowers (hsame.trans hl)
    rw [hnew, heq]
    exact callLowered hl ha host
  · have hkept := Bool.eq_false_iff.mpr hl
    rw [hnew, lowerAt_of_not_lowers (hsame.trans hkept)]
    exact (callKept hkept hpq hargs).append (hr.append ha)

end Leaves

theorem lowering_leaves (f : Family) (spelledOut : List String) (package : String) :
    (lowering f spelledOut package).Relates
      (fun p q => scopesAt package q = scopesAt package p) (Leaves f package) where
  nil := .nil
  append h k := h.append k
  enterType hpq alike htype := scopesAt_lowering hpq alike htype
  enterAnonymous hpq _ := by rw [scopesAt, scopesAt, hpq]
  call hpq _ hargs hr ha hnew := .call hpq hargs.length_eq hr ha hnew
  type {p q site d d' new} _ _ htype hinner := by
    obtain ⟨arities, ms, hms, rfl⟩ := htype
    have hhelpers : Leaves f package [] (sites (.type (d'.addMembers (ms.map .method)) site :: q)
        (Member.visitsList (ms.map .method))) := by
      have hnone : (sites (.type (d'.addMembers (ms.map .method)) site :: q)
          (Member.visitsList (ms.map .method))).filter
            (fun y => f.pattern.isMatch y.call) = [] := by
        refine List.filter_eq_nil_iff.mpr fun y hy => ?_
        simp [MethodPattern.isMatch, Family.method_eq_none_of_mem_helpers hms hy]
      refine ⟨fun _ => rfl, ?_⟩
      rw [hnone]
      exact .nil
    have hboth := hinner.append hhelpers
    rwa [List.append_nil, ← sites_append d'.innerVisits_level,
      ← TypeDecl.innerVisits_addMembers] at hboth

/-- The outcome of the pass on a unit. -/
structure ExactOutcome (f : Family) (u out : CompilationUnit) (stats : Stats) : Prop where
  unit : out = { u with types := out.types, imports := out.imports, nextId := out.nextId }
  types : ∃ bare, TypesBecome (callsLowered f u.packageName) u.types bare ∧
    TypesBecome (helpersAdded f (f.shadowed u)) bare out.types
  changed : stats.callsChanged =
    (typesSites u.types).countP fun x => lowers f u.packageName x.path x.call
  matched : stats.callsChanged + stats.callsSkipped =
    (callsOf (typesVisits u.types)).countP f.pattern.isMatch
  left : List.Forall₂ (SameSite u.packageName)
    ((surviving f u.packageName 0 (typesSites u.types)).filter (isStuck f u.packageName))
    ((typesSites out.types).filter fun y => f.pattern.isMatch y.call)

theorem countP_lowers_add (f : Family) (package : String) (xs : List Site) :
    (xs.countP fun x => lowers f package x.path x.call) +
        (xs.countP fun x => f.pattern.isMatch x.call && !lowers f package x.path x.call) =
      (xs.map (·.call)).countP f.pattern.isMatch := by
  induction xs with
  | nil => rfl
  | cons x xs ih =>
    rw [List.map_cons, List.countP_cons, List.countP_cons, List.countP_cons, ← ih]
    cases hl : lowers f package x.path x.call with
    | true =>
      have hm : f.pattern.isMatch x.call = true := by
        simp only [lowers, Bool.and_eq_true] at hl
        exact hl.1.1
      simp only [hm, Bool.not_true, Bool.and_false, if_true, Bool.false_eq_true, if_false]
      omega
    | false =>
      simp only [Bool.not_false, Bool.and_true, Bool.false_eq_true, if_false]
      omega

/-- The pass always succeeds. Its outcome without helpers differs from its input in lowered calls
only, and each factory call is either lowered or skipped. -/
theorem run_lowers_exactly (f : Family) (u : CompilationUnit) (log : ChangeLog) :
    ∃ stats, (FactoryHelpers.run f u log).result = .ok stats ∧
      ExactOutcome f u (FactoryHelpers.run f u log).unit stats := by
  have hwalk := (walk_lowering f u).1
  have haccount := walk_account f u
  refine ⟨_, run_result f u log, ⟨?_, ?_, ?_, ?_, ?_⟩⟩
  · obtain ⟨imports, hunit⟩ := ImportEdits.apply_unit_eq (walk f u).2.edits (walkedUnit f u)
    rw [run_eq, hunit]
    rfl
  · obtain ⟨bare, hlow, hadd⟩ := (lowering_factors f (f.shadowed u) u.packageName).types [] u.types
      [] (walk f u).1 (typesBecome_iff.mp hwalk)
    rw [run_types]
    exact ⟨bare, typesBecome_iff.mpr (hlow []), typesBecome_iff.mpr (hadd [] [])⟩
  · have hchanged := haccount.changed
    rwa [Nat.zero_add] at hchanged
  · rw [← map_call_typesSites, ← countP_lowers_add f u.packageName]
    have hchanged := haccount.changed
    have hskipped := haccount.skipped
    simp only [Nat.zero_add] at hchanged hskipped
    simp only [hchanged, hskipped]
  · rw [run_types]
    exact (hwalk.rel_sites (lowering_leaves f (f.shadowed u) u.packageName) rfl).kept

end FactoryLowering.FactoryHelpers
