import JcosKernel.Framebuffer.Runs

/-!
# JcosKernel.Framebuffer.Grant

**What a direct grant exposes.** `direct_map_safe` decides whether Ring 3 may get the pages around
the framebuffer. Either every byte of them is described as memory-mapped I/O, or they are the
framebuffer and nothing else and no descriptor of another type than reserved reaches into them.

The two checks walk the memory map by offsets that are `u64`s. A map that lies in one half of the
address space is too short for an offset to wrap (`InMap.reached`), so a walk looks at the
descriptors one after the other (`walk_spec`) and ends (`walk_isSome`).
-/

namespace JcosKernel

variable {map : BootMemoryMap} {d : BootMemoryDescriptor} {boot : BootFramebuffer}
  {a base cursor fuel k last limit left : Nat}

/-- The byte `a` is in the memory that a descriptor describes. -/
def BootMemoryDescriptor.Describes (d : BootMemoryDescriptor) (a : Nat) : Prop :=
  d.physicalStart ≤ a ∧ a < d.physicalStart + d.numberOfPages * frameSize

namespace BootMemoryMap

/-- The descriptor number `k` of the map. -/
def descriptor (map : BootMemoryMap) (k : Nat) : BootMemoryDescriptor :=
  map.descriptorAt (map.memoryMapDescriptorSize * k)

/-- The map has a descriptor number `k`. -/
def InMap (map : BootMemoryMap) (k : Nat) : Prop :=
  map.memoryMapDescriptorSize * k + bootMemoryDescriptorSize ≤ map.memoryMapSize

/-- A map that memory holds: it does not leave the lower half of the address space. -/
structure InMemory (map : BootMemoryMap) : Prop where
  lower : map.memoryMap + map.memoryMapSize ≤ 2 ^ 63
  one : map.memoryMapDescriptorSize ≤ map.memoryMapSize

/-- Descriptors end at a `u64`, and no byte belongs to two of them. -/
structure WellDescribed (map : BootMemoryMap) : Prop where
  ends : ∀ k, map.InMap k →
    (map.descriptor k).physicalStart + (map.descriptor k).numberOfPages * frameSize ≤ max64
  disjoint : ∀ j k, map.InMap j → map.InMap k → j ≠ k →
    ∀ a, ¬ ((map.descriptor j).Describes a ∧ (map.descriptor k).Describes a)

end BootMemoryMap

theorem limit?_eq (h : d.limit? = some limit) :
    limit = d.physicalStart + d.numberOfPages * frameSize := by
  unfold BootMemoryDescriptor.limit? at h
  split_ifs at h
  exact (Option.some.inj h).symm

theorem limit?_isSome (ha : d.Describes a)
    (hend : d.physicalStart + d.numberOfPages * frameSize ≤ max64) :
    d.limit? = some (d.physicalStart + d.numberOfPages * frameSize) := by
  obtain ⟨hlow, hhigh⟩ := ha
  unfold BootMemoryDescriptor.limit?
  unfold frameSize at *
  rw [if_neg (by omega), if_neg (by omega)]

/-! ### The loops over the descriptors -/

namespace BootMemoryMap

/-- The sum that a loop tests does not wrap at a descriptor of the map, nor right behind it. -/
theorem InMap.reached (hmem : map.InMemory) (hwalk : map.Walkable) (h : map.InMap k) :
    map.memoryMapDescriptorSize * (k + 1) + bootMemoryDescriptorSize < 2 ^ 64 := by
  obtain ⟨hlower, hone⟩ := hmem
  have hne := hwalk.1
  unfold InMap at h
  rw [Nat.mul_add_one]
  omega

section Walk

variable {α β : Type} {turn : α → BootMemoryDescriptor → α ⊕ β} {done : α → β} {acc : α} {b : β}

/-- One turn of a walk that stands at descriptor number `k`. -/
theorem walk_succ (hmem : map.InMemory) (hwalk : map.Walkable)
    (hk : map.memoryMapDescriptorSize * k + bootMemoryDescriptorSize < 2 ^ 64) :
    map.walk turn done (fuel + 1) (map.memoryMapDescriptorSize * k) acc =
      if map.memoryMapDescriptorSize * k + bootMemoryDescriptorSize ≤ map.memoryMapSize then
        match turn acc (map.descriptor k) with
        | .inl acc => map.walk turn done fuel (map.memoryMapDescriptorSize * (k + 1)) acc
        | .inr b => some b
      else some (done acc) := by
  rw [walk, Nat.mod_eq_of_lt hk]
  refine if_ctx_congr Iff.rfl (fun hin => ?_) fun _ => rfl
  have hnext := InMap.reached hmem hwalk hin
  rw [← Nat.mul_add_one, Nat.mod_eq_of_lt (by omega)]
  rfl

/-- A walk from descriptor `k` on breaks at a descriptor of the map, or passes all of them. -/
theorem walk_spec (hmem : map.InMemory) (hwalk : map.Walkable)
    (hk : map.memoryMapDescriptorSize * k + bootMemoryDescriptorSize < 2 ^ 64)
    (h : map.walk turn done fuel (map.memoryMapDescriptorSize * k) acc = some b) :
    (∃ j acc, map.InMap j ∧ turn acc (map.descriptor j) = .inr b) ∨
      (∃ acc, b = done acc) ∧
        ∀ j, k ≤ j → map.InMap j → ∃ acc acc', turn acc (map.descriptor j) = .inl acc' := by
  induction fuel generalizing k acc with
  | zero => cases h
  | succ fuel ih =>
    rw [walk_succ hmem hwalk hk] at h
    split_ifs at h with hin
    · split at h
      · next acc' hturn =>
        refine (ih (InMap.reached hmem hwalk hin) h).imp_right (.imp_right fun hall j hj hjin => ?_)
        rcases Nat.eq_or_lt_of_le hj with rfl | hlt
        · exact ⟨acc, acc', hturn⟩
        · exact hall j hlt hjin
      · next b' hturn =>
        cases h
        exact .inl ⟨k, acc, hin, hturn⟩
    · -- the descriptors behind the end of the map are not in it either
      refine .inr ⟨⟨acc, (Option.some.inj h).symm⟩, fun j hj hjin => absurd (le_trans ?_ hjin) hin⟩
      exact Nat.add_le_add_right (Nat.mul_le_mul_left _ hj) _

/-- The offset grows with every turn, so a walk ends within as many turns as the map has bytes. -/
theorem walk_isSome (hmem : map.InMemory) (hwalk : map.Walkable)
    (hk : map.memoryMapDescriptorSize * k + bootMemoryDescriptorSize < 2 ^ 64)
    (hfuel : map.memoryMapSize - map.memoryMapDescriptorSize * k < fuel) :
    (map.walk turn done fuel (map.memoryMapDescriptorSize * k) acc).isSome := by
  induction fuel generalizing k acc with
  | zero => omega
  | succ fuel ih =>
    rw [walk_succ hmem hwalk hk]
    split_ifs with hin
    · split
      · have hpos : 0 < bootMemoryDescriptorSize := by decide
        have hsize := hwalk.2.2
        exact ih (InMap.reached hmem hwalk hin) (by rw [Nat.mul_add_one]; omega)
      · rfl
    · rfl

/-- The sum does not wrap at the first descriptor. -/
theorem start_reached :
    map.memoryMapDescriptorSize * 0 + bootMemoryDescriptorSize < 2 ^ 64 :=
  show 40 < 2 ^ 64 by decide

end Walk

theorem coverTurn_spec {d' : BootMemoryDescriptor} {u : Unit} (h : coverTurn cursor u d = .inr (some (d', limit))) :
    d' = d ∧ ∀ a, cursor ≤ a → a < limit → d.Describes a := by
  unfold coverTurn at h
  split at h
  · cases h
  · next limit' hlimit =>
    split_ifs at h with hout
    cases h
    refine ⟨rfl, fun a h1 h2 => ⟨by omega, ?_⟩⟩
    rwa [← limit?_eq hlimit]

/-- Every byte from the cursor on is described as memory-mapped I/O. -/
theorem mmioLoop_describes (hmem : map.InMemory) (hwalk : map.Walkable)
    (h : map.mmioLoop fuel last left cursor = some true) (ha : cursor ≤ a) (hlt : a < last) :
    ∃ k, map.InMap k ∧ (map.descriptor k).Describes a ∧
      (map.descriptor k).type = efiMemoryMappedIo := by
  induction left generalizing cursor with
  | zero => cases h
  | succ left ih =>
    rw [mmioLoop, if_pos (by omega)] at h
    split at h
    · cases h
    · cases h
    · next d limit hcover =>
      obtain ⟨k, _, hin, hturn⟩ | ⟨⟨_, hnone⟩, -⟩ := walk_spec (k := 0) hmem hwalk start_reached hcover
      · obtain ⟨rfl, hdesc⟩ := coverTurn_spec hturn
        split_ifs at h with htype hmove
        · cases h
        · cases h
        · by_cases hlimit : a < limit
          · exact ⟨k, hin, hdesc a ha hlimit, not_not.mp htype⟩
          · exact ih h (by omega)
      · cases hnone

/-- The cursor moves, so the loop ends within as many turns as there are bytes. -/
theorem mmioLoop_isSome (hmem : map.InMemory) (hwalk : map.Walkable)
    (hfuel : map.memoryMapSize < fuel) (hleft : last - cursor < left) :
    (map.mmioLoop fuel last left cursor).isSome := by
  induction left generalizing cursor with
  | zero => omega
  | succ left ih =>
    rw [mmioLoop]
    split_ifs
    · have hends : (map.walk (coverTurn cursor) (fun _ => none) fuel 0 ()).isSome :=
        walk_isSome (k := 0) hmem hwalk start_reached hfuel
      obtain ⟨cover, hcover⟩ := Option.isSome_iff_exists.mp hends
      rw [hcover]
      rcases cover with _ | ⟨d, limit⟩
      · rfl
      · dsimp only
        split_ifs
        · rfl
        · rfl
        · exact ih (by omega)
    · rfl

/-- A descriptor that reaches into the mapping and does not break the loop is reserved or
memory-mapped I/O. -/
theorem overlapTurn_spec {observed observed' : Option Nat}
    (h : overlapTurn base limit observed d = .inl observed')
    (hend : d.physicalStart + d.numberOfPages * frameSize ≤ max64) (ha : d.Describes a)
    (hbase : base ≤ a) (hlimit : a < limit) :
    d.type = efiReservedMemoryType ∨ d.type = efiMemoryMappedIo := by
  unfold overlapTurn at h
  rw [limit?_isSome ha hend] at h
  obtain ⟨hlow, hhigh⟩ := ha
  dsimp only at h
  rw [if_neg (by omega)] at h
  split_ifs at h with hbad
  tauto

theorem overlapTurn_break {observed safe : Option Nat}
    (h : overlapTurn base limit observed d = .inr safe) : safe = none := by
  unfold overlapTurn at h
  grind

end BootMemoryMap

/-! ### The mapping -/

namespace BootFramebuffer

theorem toNat_pageOffset : boot.pageOffset.toNat = boot.base.toNat % 4096 := by
  rw [pageOffset, BitVec.toNat_and]
  exact Nat.and_two_pow_sub_one_eq_mod _ 12

theorem toNat_mappingBase : boot.mappingBase.toNat = boot.base.toNat - boot.base.toNat % 4096 := by
  rw [mappingBase, BitVec.toNat_sub_of_le, toNat_pageOffset]
  rw [BitVec.le_def, toNat_pageOffset]
  exact Nat.mod_le _ _

theorem toNat_mappingSize (h : boot.Mappable) :
    boot.mappingSize.toNat = (boot.size.toNat + boot.base.toNat % 4096 + 4095) / 4096 * 4096 := by
  obtain ⟨h1, h2, -, -⟩ := h
  have hmask : ~~~(4095 : BitVec 64) = BitVec.allOnes 64 <<< 12 := by decide
  have hoff := boot.toNat_pageOffset
  have hsum : (boot.size + boot.pageOffset + 4095).toNat =
      boot.size.toNat + boot.base.toNat % 4096 + 4095 := by bv_omega
  rw [mappingSize, hmask, ← BitVec.shiftLeft_ushiftRight, BitVec.toNat_shiftLeft,
    BitVec.toNat_ushiftRight, hsum, Nat.shiftLeft_eq, Nat.shiftRight_eq_div_pow]
  omega

end BootFramebuffer

/-- The byte `a` is in the pages of the mapping. -/
def FramebufferInfo.Maps (fb : FramebufferInfo) (a : Nat) : Prop :=
  fb.mappingPhysicalBase.toNat ≤ a ∧ a < fb.mappingPhysicalBase.toNat + fb.mappingSize.toNat

/-- What a framebuffer says about its mapping, in memory that `map` describes. -/
structure DirectGrant (map : BootMemoryMap) (fb : FramebufferInfo) : Prop where
  types : fb.directMapSafe = true → map.WellDescribed → ∀ k, map.InMap k → ∀ a, fb.Maps a →
    (map.descriptor k).Describes a →
      (map.descriptor k).type = efiReservedMemoryType ∨ (map.descriptor k).type = efiMemoryMappedIo
  exact : fb.directMapSafe = true →
    (∀ a, fb.Maps a → ∃ k, map.InMap k ∧ (map.descriptor k).Describes a ∧
      (map.descriptor k).type = efiMemoryMappedIo) ∨
      fb.mappingPhysicalBase = fb.physicalBase ∧ fb.mappingSize = fb.size
  /-- The sums behind the mapping do not wrap. -/
  spans : fb.mappingPhysicalBase.toNat + fb.pageOffset.toNat = fb.physicalBase.toNat ∧
    fb.pageOffset.toNat + fb.size.toNat ≤ fb.mappingSize.toNat ∧
    fb.mappingPhysicalBase.toNat + fb.mappingSize.toNat ≤ 2 ^ 64
  /-- Neither does the address of a pixel, whose four bytes are mapped. -/
  pixels : ∀ y < fb.height, ∀ x < fb.width,
    (pixelAt fb.physicalBase fb.pixelsPerScanline y x).toNat =
      fb.physicalBase.toNat + 4 * (y.toNat * fb.pixelsPerScanline.toNat + x.toNat) ∧
    ∀ i < 4, fb.Maps ((pixelAt fb.physicalBase fb.pixelsPerScanline y x).toNat + i)

namespace BootMemoryMap

variable {start size : Nat}

theorem directSpanIsMmio_describes (hmem : map.InMemory)
    (h : map.directSpanIsMmio fuel start size = some true) (ha : start ≤ a) (hlt : a < start + size) :
    ∃ k, map.InMap k ∧ (map.descriptor k).Describes a ∧
      (map.descriptor k).type = efiMemoryMappedIo := by
  unfold directSpanIsMmio at h
  split_ifs at h with hbad
  · cases h
  · exact mmioLoop_describes hmem (by tauto) h ha hlt

/-- Both checks end. -/
theorem directSpanIsSafe_isSome (hmem : map.InMemory) {mappingBase mappingSize : Nat}
    (hfuel : map.memoryMapSize < fuel) (hsize : mappingSize < fuel) :
    (map.directSpanIsSafe fuel start size mappingBase mappingSize).isSome := by
  have hmmio : (map.directSpanIsMmio fuel mappingBase mappingSize).isSome := by
    unfold directSpanIsMmio
    split_ifs with hbad
    · rfl
    · exact mmioLoop_isSome hmem (by tauto) hfuel (by omega)
  obtain ⟨mmio, hmmio⟩ := Option.isSome_iff_exists.mp hmmio
  rw [directSpanIsSafe, hmmio, Option.bind_some]
  split_ifs with hyes hbad
  · rfl
  · rfl
  · exact walk_isSome (k := 0) hmem (by tauto) start_reached hfuel

end BootMemoryMap

namespace BootFramebuffer

theorem spans (hmap : boot.Mappable) : boot.mappingBase.toNat + boot.pageOffset.toNat = boot.base.toNat ∧
    boot.pageOffset.toNat + boot.size.toNat ≤ boot.mappingSize.toNat ∧
    boot.mappingBase.toNat + boot.mappingSize.toNat ≤ 2 ^ 64 := by
  have hbase := boot.toNat_mappingBase
  have hoff := boot.toNat_pageOffset
  have hsize := toNat_mappingSize hmap
  have hall : (BitVec.allOnes 64).toNat = 2 ^ 64 - 1 := BitVec.toNat_allOnes
  obtain ⟨-, -, hne, hend⟩ := hmap
  exact ⟨by omega, by omega, by bv_omega⟩

theorem pixel_mapped (hacc : boot.Accepted) (hmap : boot.Mappable) {y x : BitVec 32}
    (hy : y < boot.height) (hx : x < boot.width) :
    (pixelAt boot.base boot.pixelsPerScanline y x).toNat =
      boot.base.toNat + 4 * (y.toNat * boot.pixelsPerScanline.toNat + x.toNat) ∧
    boot.mappingBase.toNat ≤ (pixelAt boot.base boot.pixelsPerScanline y x).toNat ∧
    (pixelAt boot.base boot.pixelsPerScanline y x).toNat + 4 ≤
      boot.mappingBase.toNat + boot.mappingSize.toNat := by
  obtain ⟨hlast, hend⟩ := hacc.fits
  have hspans := spans hmap
  have hrows : y.toNat * boot.pixelsPerScanline.toNat ≤
      (boot.height.toNat - 1) * boot.pixelsPerScanline.toNat :=
    Nat.mul_le_mul_right _ (Nat.le_sub_one_of_lt hy)
  have hcol : x.toNat < boot.width.toNat := hx
  have haddr := toNat_pixelAt_add boot.base boot.pixelsPerScanline y x 0#64 0 rfl
  rw [BitVec.add_zero, Nat.mod_eq_of_lt (by omega)] at haddr
  rw [haddr]
  omega

theorem directGrant (hmem : boot.map.InMemory) (hacc : boot.Accepted) (hmap : boot.Mappable)
    {safe : Option Nat} (h : boot.map.directSpanIsSafe fuel boot.base.toNat boot.size.toNat
      boot.mappingBase.toNat boot.mappingSize.toNat = some safe) :
    DirectGrant boot.map (boot.info safe) := by
  have hcases : safe.isSome = true →
      (∀ a, (boot.info safe).Maps a → ∃ k, boot.map.InMap k ∧ (boot.map.descriptor k).Describes a ∧
        (boot.map.descriptor k).type = efiMemoryMappedIo) ∨
      boot.mappingBase = boot.base ∧ boot.mappingSize = boot.size ∧
        ∀ k, boot.map.InMap k → ∃ acc acc', BootMemoryMap.overlapTurn boot.mappingBase.toNat
          (boot.mappingBase.toNat + boot.mappingSize.toNat) acc (boot.map.descriptor k) =
            .inl acc' := by
    intro hsafe
    obtain ⟨mmio, hmmio, h⟩ := Option.bind_eq_some_iff.mp h
    split_ifs at h with hyes hexact
    · subst hyes
      exact .inl fun a ha => BootMemoryMap.directSpanIsMmio_describes hmem hmmio ha.1 ha.2
    · cases h
      cases hsafe
    · rw [not_or, not_or, not_or, not_not, not_not, not_not] at hexact
      obtain ⟨hbase, hsize, hwalk, -⟩ := hexact
      refine .inr ⟨(BitVec.eq_of_toNat_eq hbase).symm, (BitVec.eq_of_toNat_eq hsize).symm, ?_⟩
      obtain ⟨k, acc, -, hbreak⟩ | ⟨-, hall⟩ :=
        BootMemoryMap.walk_spec (k := 0) hmem hwalk BootMemoryMap.start_reached h
      · rw [BootMemoryMap.overlapTurn_break hbreak] at hsafe
        cases hsafe
      · exact fun k => hall k (Nat.zero_le k)
  refine ⟨fun hsafe hok k hk a ha hdesc => ?_, fun hsafe => ?_, spans hmap, fun y hy x hx => ?_⟩
  · rcases hcases hsafe with hall | ⟨-, -, hover⟩
    · -- the byte is described once, as memory-mapped I/O
      obtain ⟨j, hj, hdesc', htype⟩ := hall a ha
      by_cases heq : j = k
      · exact .inr (heq ▸ htype)
      · exact absurd ⟨hdesc', hdesc⟩ (hok.disjoint j k hj hk heq a)
    · obtain ⟨_, _, hturn⟩ := hover k hk
      exact BootMemoryMap.overlapTurn_spec hturn (hok.ends k hk) hdesc ha.1 ha.2
  · exact (hcases hsafe).imp_right fun h => ⟨h.1, h.2.1⟩
  · obtain ⟨haddr, hlow, hhigh⟩ := pixel_mapped hacc hmap hy hx
    exact ⟨haddr, fun i hi => ⟨Nat.le_add_right_of_le hlow,
      (Nat.add_lt_add_left hi _).trans_le hhigh⟩⟩

end BootFramebuffer

/-- **What a direct grant exposes.** In a map that memory holds, `framebuffer_init` returns, and a
framebuffer it accepts says the truth about its mapping. -/
theorem direct_grant_exposes_nothing {s : ScanoutState} (hmem : boot.map.InMemory) :
    ∀ fuel > boot.map.memoryMapSize + boot.mappingSize.toNat,
      ∃ ok s', s.framebufferInit fuel (some boot) = some (ok, s') ∧
        (ok = true → DirectGrant boot.map s'.framebuffer) := by
  intro fuel hfuel
  have hends : (boot.map.directSpanIsSafe fuel boot.base.toNat boot.size.toNat
      boot.mappingBase.toNat boot.mappingSize.toNat).isSome :=
    BootMemoryMap.directSpanIsSafe_isSome hmem (by omega) (by omega)
  obtain ⟨safe, hsafe⟩ := Option.isSome_iff_exists.mp hends
  have hret : ∃ ok s', s.framebufferInit fuel (some boot) = some (ok, s') := by
    unfold ScanoutState.framebufferInit
    dsimp only
    rw [hsafe]
    split_ifs <;> exact ⟨_, _, rfl⟩
  obtain ⟨ok, s', h⟩ := hret
  refine ⟨ok, s', h, ?_⟩
  rintro rfl
  obtain ⟨hacc, hmap, safe, hsafe, rfl⟩ := ScanoutState.framebufferInit_true h
  exact BootFramebuffer.directGrant hmem hacc hmap hsafe

/-- A map with room for two descriptors: other memory, and a reserved aperture. -/
def apertureMap : BootMemoryMap :=
  ⟨0x1000, 100, 48, fun offset =>
    if offset = 0 then ⟨7, 0x100000, 16⟩ else ⟨efiReservedMemoryType, 0x80000000, 16⟩⟩

theorem direct_grant_of_aperture : apertureMap.InMemory ∧ apertureMap.WellDescribed ∧
    ∃ s, ScanoutState.boot.framebufferInit 0x20000 (some (pageExact apertureMap)) = some (true, s) ∧
      s.framebuffer.directMapSafe = true ∧ DirectGrant apertureMap s.framebuffer := by
  have hmem : (pageExact apertureMap).map.InMemory := ⟨by decide, by decide⟩
  have htwo : ∀ k, apertureMap.InMap k → k = 0 ∨ k = 1 := fun k hk => by
    have : 48 * k + 40 ≤ 100 := hk
    omega
  have hsafe : (ScanoutState.boot.framebufferInit 0x20000 (some (pageExact apertureMap))).map
      (fun r => (r.1, r.2.framebuffer.directMapSafe)) = some (true, true) := by decide +kernel
  obtain ⟨ok, s, h, hgrant⟩ := direct_grant_exposes_nothing (s := ScanoutState.boot) hmem
    0x20000 (by decide +kernel)
  rw [h] at hsafe
  obtain ⟨rfl, hmap⟩ := Prod.mk.inj (Option.some.inj hsafe)
  refine ⟨hmem, ⟨fun k hk => ?_, fun j k hj hk hne a => ?_⟩, s, h, hmap, hgrant rfl⟩
  · obtain rfl | rfl := htwo k hk <;> decide
  · obtain rfl | rfl := htwo j hj <;> obtain rfl | rfl := htwo k hk <;>
      simp [BootMemoryDescriptor.Describes, BootMemoryMap.descriptor, apertureMap, frameSize] at hne ⊢
    all_goals omega

end JcosKernel
