import PaperBoxing.Lib.Disk

/-! # What a call on the disk looks at

A call reads and changes the entries at its paths, those above them, and for some calls those below
them. On two trees that look alike at a set of paths which holds all of these, it answers alike, and
leaves trees that look alike there. -/

namespace PaperBoxing.Lib.Locality

open PaperBoxing.Lib.Action PaperBoxing.Lib.Trees PaperBoxing.Lib.Disk

variable {N : Type} [Ord N] [Std.TransOrd N] [Std.LawfulEqOrd N] {t t' : Files N} {D : Path N → Prop}

/-- Two trees look alike at the paths of `D`. -/
def Alike (D : Path N → Prop) (t t' : Files N) : Prop := ∀ p, D p → t.get p = t'.get p

/-- A set of paths goes with all that is above it. -/
def Upward (D : Path N → Prop) : Prop := ∀ p q, p <+: q → D q → D p

/-- **The calls that look at `D` only.** -/
def LooksAt (D : Path N → Prop) : Call N → Prop
  | .lstat p | .mtime p | .stat p | .isDir p | .read p | .mkdir p | .unlink p | .create p | .write p _
  | .sync p => D p
  | .realpath _ => True
  | .scandir p | .rmdir p | .walk p => ∀ q, p <+: q → D q
  | .replace src dst => (∀ q, src <+: q → D q) ∧ ∀ q, dst <+: q → D q

theorem absent_alike (hD : Upward D) (h : Alike D t t') {p : Path N} (hp : D p) :
    absent t p = absent t' p := by
  have hall : (p.inits.dropLast.any fun q => (t.get q).isSome && !isFolder (t.get q)) =
      p.inits.dropLast.any fun q => (t'.get q).isSome && !isFolder (t'.get q) := by
    rw [Bool.eq_iff_iff, List.any_eq_true, List.any_eq_true]
    refine exists_congr fun q => and_congr_right fun hq => ?_
    rw [h q (hD q p ((List.mem_inits q p).1 (List.dropLast_subset _ hq)) hp)]
  rw [absent, absent, hall]

theorem fits_alike (hD : Upward D) (h : Alike D t t') {p : Path N} (hp : D p) :
    t.Fits p ↔ t'.Fits p := by
  rw [Tree.Fits, Tree.Fits, h p hp, h _ (hD _ _ (List.dropLast_prefix p) hp)]

theorem lookup_alike (hD : Upward D) (h : Alike D t t') {p : Path N} (hp : D p) :
    (lookup p t).1 = (lookup p t').1 := by
  rw [lookup, lookup, h p hp, absent_alike hD h hp]
  split <;> rfl

theorem bind_lookup_alike (hD : Upward D) (h : Alike D t t') {p : Path N} (hp : D p) {A : Type}
    (f : Node N FileData → A) : ((lookup p >>= fun n => Act.ret (f n)) t).1 =
      ((lookup p >>= fun n => Act.ret (f n)) t').1 := by
  have hl := lookup_alike hD h hp
  rw [Act.bind_apply, Act.bind_apply]
  generalize lookup p t = x at hl ⊢
  generalize lookup p t' = y at hl ⊢
  obtain ⟨rx, _⟩ := x
  obtain ⟨ry, _⟩ := y
  obtain rfl : rx = ry := hl
  rcases rx with _ | _ <;> rfl

variable [DecidableEq N]

theorem put_alike (hD : Upward D) (h : Alike D t t') {p : Path N} (hp : D p) (hf : t.Fits p)
    (n : Node N FileData) : Alike D (t.put p n) (t'.put p n) := fun q hq => by
  rw [Tree.get_put hf, Tree.get_put ((fits_alike hD h hp).1 hf), h q hq]

theorem prune_alike (h : Alike D t t') {p : Path N} (hp : p ≠ []) :
    Alike D (t.prune p) (t'.prune p) := fun q hq => by
  rw [Tree.get_prune hp, Tree.get_prune hp, h q hq]

theorem children_alike (h : Alike D t t') {p : Path N} (hp : ∀ q, p <+: q → D q) :
    t.children p = t'.children p :=
  Tree.children_congr fun _ => h _ (hp _ (List.prefix_append _ _))

theorem movable_alike (hD : Upward D) (h : Alike D t t') {src dst : Path N} (hs : D src) (hd : D dst)
    (hc : t.children dst = t'.children dst) : t.Movable src dst ↔ t'.Movable src dst := by
  rw [Tree.Movable, Tree.Movable, h _ hs, h _ (hD _ _ (List.dropLast_prefix dst) hd), hc]

theorem move_alike (h : Alike D t t') {src dst : Path N} (hm : t.Movable src dst)
    (hm' : t'.Movable src dst) (hs : ∀ q, src <+: q → D q) :
    Alike D (t.move src dst) (t'.move src dst) := fun q hq => by
  rw [Tree.get_move hm, Tree.get_move hm', h q hq, h _ (hs _ (List.prefix_append _ _))]

/-- **A call answers by what it looks at**, and changes what it looks at by it. -/
theorem exec_alike (env : Env N) (hD : Upward D) (h : Alike D t t') {c : Call N} (hc : LooksAt D c) :
    (exec env c t).1 = (exec env c t').1 ∧ Alike D (exec env c t).2 (exec env c t').2 := by
  have hlook : ∀ {p : Path N} {A : Type} (f : Node N FileData → A), D p →
      ((lookup p >>= fun n => Act.ret (f n)) t).1 = ((lookup p >>= fun n => Act.ret (f n)) t').1 ∧
        Alike D ((lookup p >>= fun n => Act.ret (f n)) t).2
          ((lookup p >>= fun n => Act.ret (f n)) t').2 := fun f hp =>
    ⟨bind_lookup_alike hD h hp f, by rwa [bind_lookup_tree, bind_lookup_tree]⟩
  cases c with
  | lstat p => exact hlook _ hc
  | mtime p => exact hlook _ hc
  | stat p => exact hlook _ hc
  | sync p => exact hlook _ hc
  | realpath p => exact ⟨rfl, h⟩
  | isDir p => exact ⟨by simp only [exec, h p hc], h⟩
  | read p =>
    simp only [exec, Disk.read, h p hc, absent_alike hD h (p := p) hc]
    split <;> exact ⟨rfl, h⟩
  | scandir p =>
    have hp : D p := hc p List.prefix_rfl
    simp only [exec, scandir, h p hp, absent_alike hD h hp, children_alike h hc]
    split <;> exact ⟨rfl, h⟩
  | walk p =>
    have hp : D p := hc p List.prefix_rfl
    have hb : t.below p = t'.below p :=
      Tree.below_congr (funext fun q => h _ (hc _ (List.prefix_append _ q)))
    simp only [exec, walk, h p hp, absent_alike hD h hp, hb]
    split <;> exact ⟨rfl, h⟩
  | mkdir p =>
    simp only [exec, mkdir, h p hc, absent_alike hD h (p := p) hc]
    split
    · exact ⟨rfl, h⟩
    · by_cases hf : t.Fits p
      · rw [if_pos hf, if_pos ((fits_alike hD h hc).1 hf)]
        exact ⟨rfl, put_alike hD h hc hf _⟩
      · rw [if_neg hf, if_neg (mt (fits_alike hD h hc).2 hf)]
        exact ⟨rfl, h⟩
  | create p =>
    simp only [exec, create, h p hc, absent_alike hD h (p := p) hc]
    split
    · exact ⟨rfl, h⟩
    · by_cases hf : t.Fits p
      · rw [if_pos hf, if_pos ((fits_alike hD h hc).1 hf)]
        exact ⟨rfl, put_alike hD h hc hf _⟩
      · rw [if_neg hf, if_neg (mt (fits_alike hD h hc).2 hf)]
        exact ⟨rfl, h⟩
  | write p bytes =>
    have hp := h p hc
    simp only [exec, write, ← hp, ← absent_alike hD h (p := p) hc]
    split
    · next d hd =>
      have hf : t.Fits p := Tree.fits_iff.2
        ⟨by rintro rfl; simp at hd, Tree.get_dropLast (by simp [hd]), by simp [hd]⟩
      exact ⟨rfl, put_alike hD h hc hf _⟩
    · exact ⟨rfl, h⟩
    · exact ⟨rfl, h⟩
  | unlink p =>
    have hp := h p hc
    simp only [exec, unlink, ← hp, ← absent_alike hD h (p := p) hc]
    split
    · exact ⟨rfl, h⟩
    · next n hn hg =>
      refine ⟨rfl, prune_alike h ?_⟩
      rintro rfl
      exact hn (by rw [Tree.get_root] at hg; exact (Option.some.inj hg).symm)
    · exact ⟨rfl, h⟩
  | rmdir p =>
    have hp : D p := hc p List.prefix_rfl
    simp only [exec, rmdir, h p hp, absent_alike hD h hp, children_alike h hc]
    split
    · split_ifs with he
      · exact ⟨rfl, prune_alike h he.1⟩
      · exact ⟨rfl, h⟩
    · exact ⟨rfl, h⟩
    · exact ⟨rfl, h⟩
  | replace src dst =>
    have hs : D src := hc.1 src List.prefix_rfl
    have hd : D dst := hc.2 dst List.prefix_rfl
    have hm := movable_alike hD h hs hd (children_alike h hc.2)
    simp only [exec, replace, h src hs, h dst hd, absent_alike hD h hs, absent_alike hD h hd, hm]
    split_ifs <;> try exact ⟨rfl, h⟩
    next hmov => exact ⟨rfl, move_alike h (hm.2 hmov) hmov hc.1⟩

end PaperBoxing.Lib.Locality
