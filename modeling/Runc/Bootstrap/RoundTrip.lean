import Runc.Bootstrap.Walk

/-!
# The bootstrap message is read back

What runc has to say to nsexec is compared with what `nl_parse` stores and
`__open_namespaces` makes of it.
-/

namespace Runc.Bootstrap

open Lib

structure Told where
  cloneflags : Nat
  namespaces : Option (List (Bytes × Bytes))
  uidmap : Option Bytes
  gidmap : Option Bytes
  uidmappath : Option Bytes
  gidmappath : Option Bytes
  setgroup : Bool
  oomScoreAdj : Option Bytes
  rootlessEuid : Bool
  timensoffset : Option Bytes

section Told

variable (host : Host) (config : Config) (cloneFlags : Nat) (nsMaps : NsMap)

def namespacePair (ns : NamespaceType) : Option (Bytes × Bytes) :=
  if config.contains ns then
    match nsMaps.get ns with
    | none => none
    | some p => if p = [] then none else some (nsName ns, p)
  else none

def namespacePairs : List (Bytes × Bytes) :=
  namespaceTypes.filterMap (namespacePair config nsMaps)

def freshUser : Bool :=
  !(nsMaps.get .newUser).isSome

def told : Told where
  cloneflags := cloneFlags % 2 ^ 32
  namespaces :=
    if nsMaps.length > 0 then some (namespacePairs config nsMaps) else none
  uidmap :=
    if freshUser nsMaps && config.uidMappings.length > 0 then
      some (encodeIDMapping config.uidMappings)
    else none
  uidmappath :=
    if freshUser nsMaps && config.uidMappings.length > 0 && config.rootlessEUID then
      host.newuidmap
    else none
  gidmap :=
    if freshUser nsMaps && config.gidMappings.length > 0 then
      some (encodeIDMapping config.gidMappings)
    else none
  gidmappath :=
    if freshUser nsMaps && config.gidMappings.length > 0 && config.rootlessEUID then
      host.newgidmap
    else none
  setgroup :=
    freshUser nsMaps && config.gidMappings.length > 0 &&
      requiresRootOrMappingTool host config
  oomScoreAdj := config.oomScoreAdj.map decimal
  rootlessEuid := config.rootlessEUID
  timensoffset :=
    if (nsMaps.get .newTime).isSome then none
    else config.timeOffsets.map encodeTimeOffsets

end Told

def ended (bytes : Bytes) : Bytes :=
  bytes ++ [0]

def pairItem (pair : Bytes × Bytes) : Bytes :=
  pair.1 ++ colon :: pair.2

def flagByte (e : Endian) (value : Bool) : Nat :=
  e.get ((e.put 4 (if value then 1 else 0)).take 1)

def Told.arrives (t : Told) (e : Endian) : NlConfig where
  cloneflags := t.cloneflags
  oomScoreAdj := t.oomScoreAdj.map ended
  uidmap := t.uidmap.map ended
  gidmap := t.gidmap.map ended
  namespaces :=
    t.namespaces.map fun pairs => ended ([comma].intercalate (pairs.map pairItem))
  isSetgroup := if t.setgroup then flagByte e true else 0
  isRootlessEuid := flagByte e t.rootlessEuid
  uidmappath := t.uidmappath.map ended
  gidmappath := t.gidmappath.map ended
  timensoffset := t.timensoffset.map ended

section Receive

variable {e : Endian}

theorem receive_bytemsg {type : Nat} {store : Bytes → NlConfig → NlConfig}
    (h : attrCase e type = some (none, store)) (value : Bytes) (c : NlConfig) :
    (Attr.bytemsg type value).receive e c = .ok (store (ended value) c) := by
  unfold Attr.receive handleAttr
  simp only [Attr.type, h, Option.getD_none, slice_all]
  rfl

theorem receive_boolmsg {type : Nat} {store : Bytes → NlConfig → NlConfig}
    (h : attrCase e type = some (some 1, store)) (value : Bool) (c : NlConfig) :
    (Attr.boolmsg type value).receive e c =
      .ok (store ((e.put 4 (if value then 1 else 0)).take 1) c) := by
  unfold Attr.receive handleAttr
  simp [Attr.type, h, Attr.payload, slice]

theorem receive_cloneFlags (cloneFlags : Nat) (c : NlConfig) :
    (Attr.int32msg cloneFlagsAttr cloneFlags).receive e c =
      .ok { c with cloneflags := cloneFlags % 2 ^ 32 } := by
  have hcase : attrCase e cloneFlagsAttr =
      some (some 4, fun word c => { c with cloneflags := e.get word }) := rfl
  have hslice : slice (e.put 4 cloneFlags) 0 4 = some (e.put 4 cloneFlags) := by
    have hall := slice_all (e.put 4 cloneFlags)
    rwa [Endian.put_length] at hall
  unfold Attr.receive handleAttr
  simp [Attr.type, hcase, Attr.payload, hslice, Endian.get_put]

variable {c : NlConfig}

theorem receiveAll_uidmapAttrs (host : Host) (config : Config)
    (hmap : c.uidmap = none) (hpath : c.uidmappath = none) :
    receiveAll e (uidmapAttrs host config) c =
      .ok { c with
        uidmap :=
          (if config.uidMappings.length > 0 then
            some (encodeIDMapping config.uidMappings)
          else none).map ended
        uidmappath := (if config.uidMappings.length > 0 && config.rootlessEUID then
            host.newuidmap
          else none).map ended } := by
  have hone : attrCase e uidmapAttr =
    some (none, fun bytes c => { c with uidmap := some bytes }) := rfl
  have htool : attrCase e uidmapPathAttr =
    some (none, fun bytes c => { c with uidmappath := some bytes }) := rfl
  unfold uidmapAttrs toolAttrs
  by_cases hlen : config.uidMappings.length > 0
  · cases hroot : config.rootlessEUID <;> cases hfound : host.newuidmap <;>
      simp [hlen, receiveAll, receive_bytemsg hone, receive_bytemsg htool, hpath]
  · cases c
    simp_all [receiveAll]

theorem receiveAll_gidmapAttrs (host : Host) (config : Config)
    (hmap : c.gidmap = none) (hpath : c.gidmappath = none) (hsetgroup : c.isSetgroup = 0) :
    receiveAll e (gidmapAttrs host config) c =
      .ok { c with
        gidmap :=
          (if config.gidMappings.length > 0 then
            some (encodeIDMapping config.gidMappings)
          else none).map ended
        gidmappath := (if config.gidMappings.length > 0 && config.rootlessEUID then
            host.newgidmap
          else none).map ended
        isSetgroup := if config.gidMappings.length > 0 && requiresRootOrMappingTool host config
          then flagByte e true else 0 } := by
  have hone : attrCase e gidmapAttr =
    some (none, fun bytes c => { c with gidmap := some bytes }) := rfl
  have htool : attrCase e gidmapPathAttr =
    some (none, fun bytes c => { c with gidmappath := some bytes }) := rfl
  have hflag : attrCase e setgroupAttr =
    some (some 1, fun byte c => { c with isSetgroup := e.get byte }) := rfl
  unfold gidmapAttrs toolAttrs
  by_cases hlen : config.gidMappings.length > 0
  · cases hroot : config.rootlessEUID <;> cases hfound : host.newgidmap <;>
      cases hneed : requiresRootOrMappingTool host config <;>
      simp [hlen, receiveAll, receive_bytemsg hone, receive_bytemsg htool,
        receive_boolmsg hflag, hpath, hsetgroup, flagByte]
  · cases c
    simp_all [receiveAll]

theorem receiveAll_idmapAttrs (host : Host) (config : Config) (nsMaps : NsMap)
    (huid : c.uidmap = none ∧ c.uidmappath = none)
    (hgid : c.gidmap = none ∧ c.gidmappath = none ∧ c.isSetgroup = 0) :
    receiveAll e (idmapAttrs host config nsMaps) c =
      .ok { c with
        uidmap := (told host config 0 nsMaps).uidmap.map ended
        uidmappath := (told host config 0 nsMaps).uidmappath.map ended
        gidmap := (told host config 0 nsMaps).gidmap.map ended
        gidmappath := (told host config 0 nsMaps).gidmappath.map ended
        isSetgroup :=
          if (told host config 0 nsMaps).setgroup then flagByte e true else 0 } := by
  unfold idmapAttrs
  cases hjoin : (nsMaps.get .newUser).isSome with
  | true =>
    cases c
    simp_all [receiveAll, told, freshUser]
  | false =>
    simp only [Bool.false_eq_true, if_false]
    refine (receiveAll_append (receiveAll_uidmapAttrs host config huid.1 huid.2)
      (receiveAll_gidmapAttrs host config hgid.1 hgid.2.1 hgid.2.2)).trans ?_
    simp [told, freshUser, hjoin]

theorem receiveAll_oomAttrs (config : Config) (hoom : c.oomScoreAdj = none) :
    receiveAll e (oomAttrs config) c =
      .ok { c with oomScoreAdj := (config.oomScoreAdj.map decimal).map ended } := by
  have hone : attrCase e oomScoreAdjAttr =
    some (none, fun bytes c => { c with oomScoreAdj := some bytes }) := rfl
  unfold oomAttrs
  cases config.oomScoreAdj with
  | none =>
    cases c
    simp_all [receiveAll]
  | some n => simp [receiveAll, receive_bytemsg hone]

theorem receiveAll_timeAttrs (config : Config) (nsMaps : NsMap) (htime : c.timensoffset = none) :
    receiveAll e (timeAttrs config nsMaps) c =
      .ok { c with
        timensoffset :=
          (if (nsMaps.get .newTime).isSome then none
          else config.timeOffsets.map encodeTimeOffsets).map ended } := by
  have hone : attrCase e timeOffsetsAttr =
    some (none, fun bytes c => { c with timensoffset := some bytes }) := rfl
  unfold timeAttrs
  by_cases hjoin : (nsMaps.get .newTime).isSome = true
  · cases c
    simp_all [receiveAll]
  · cases config.timeOffsets with
    | none =>
      cases c
      simp_all [receiveAll]
    | some offsets => simp [hjoin, receiveAll, receive_bytemsg hone]

end Receive

structure Clean (pair : Bytes × Bytes) : Prop where
  name : pair.1 ∈ allNsTypes
  path_lt : pair.2.length < pathMax
  path_zero : 0 ∉ pair.2
  path_comma : comma ∉ pair.2

theorem nsName_mem {ns : NamespaceType} (h : ns ∈ namespaceTypes) : nsName ns ∈ allNsTypes := by
  revert h
  cases ns with
  | other name => simp [namespaceTypes]
  | _ =>
    intro _
    decide

theorem namespaceItem_ok {host : Host} {config : Config} {nsMaps : NsMap} {ns : NamespaceType}
    {item : Option Bytes} (hns : ns ∈ namespaceTypes)
    (h : namespaceItem host config nsMaps ns = .ok item) :
    item = (namespacePair config nsMaps ns).map pairItem ∧
      ∀ pair, namespacePair config nsMaps ns = some pair → Clean pair := by
  unfold namespaceItem at h
  unfold namespacePair
  cases hcontains : config.contains ns with
  | false =>
    simp [hcontains] at h
    simp [← h]
  | true =>
    cases hget : nsMaps.get ns with
    | none =>
      simp [hcontains, hget] at h
      simp [← h]
    | some p =>
      by_cases hempty : p = []
      · simp [hcontains, hget, hempty] at h
        simp [hempty, ← h]
      · cases hsupported : host.supported ns with
        | false => simp [hcontains, hget, hempty, hsupported] at h
        | true =>
          cases hlstat : host.lstat p with
          | some err => simp [hcontains, hget, hempty, hsupported, hlstat] at h
          | none =>
            by_cases hcomma : comma ∈ p
            · simp [hcontains, hget, hempty, hsupported, hlstat, hcomma] at h
            · simp only [hcontains, hget, hempty, hsupported, hlstat, hcomma,
                Bool.not_true, Bool.false_eq_true, if_false, Except.ok.injEq]
                at h
              obtain ⟨hlt, hzero⟩ := host.lstat_ok p hlstat
              refine ⟨by simp [hempty, ← h, pairItem], ?_⟩
              intro pair hpair
              simp only [hempty, if_true, if_false, Option.some.injEq] at hpair
              subst hpair
              exact ⟨nsName_mem hns, hlt, hzero, hcomma⟩

theorem orderFrom_ok {host : Host} {config : Config} {nsMaps : NsMap} {types : List NamespaceType}
    {items : List Bytes} (htypes : ∀ ns ∈ types, ns ∈ namespaceTypes)
    (h : orderFrom host config nsMaps types = .ok items) :
    items = (types.filterMap (namespacePair config nsMaps)).map pairItem ∧
      ∀ pair ∈ types.filterMap (namespacePair config nsMaps), Clean pair := by
  induction types generalizing items with
  | nil =>
    cases h
    simp
  | cons ns rest ih =>
    have hrest := fun n hn => htypes n (List.mem_cons_of_mem _ hn)
    simp only [orderFrom] at h
    cases hitem : namespaceItem host config nsMaps ns with
    | error err => simp [hitem] at h
    | ok item =>
      obtain ⟨hpair, hclean⟩ :=
        namespaceItem_ok (htypes ns List.mem_cons_self) hitem
      cases hns : namespacePair config nsMaps ns with
      | none =>
        rw [hns, Option.map_none] at hpair
        subst hpair
        simp only [hitem] at h
        simpa [hns] using ih hrest h
      | some pair =>
        rw [hns, Option.map_some] at hpair
        subst hpair
        simp only [hitem] at h
        cases hmore : orderFrom host config nsMaps rest with
        | error err => simp [hmore] at h
        | ok more =>
          simp only [hmore, Except.ok.injEq] at h
          subst h
          obtain ⟨hitems, hall⟩ := ih hrest hmore
          refine ⟨by simp [hns, hitems], ?_⟩
          intro p hp
          simp only [List.filterMap_cons, hns, List.mem_cons] at hp
          rcases hp with rfl | hp
          · exact hclean _ hns
          · exact hall p hp

theorem name_plain {name : Bytes} (h : name ∈ allNsTypes) :
    name ≠ [] ∧ 0 ∉ name ∧ comma ∉ name ∧ colon ∉ name ∧ name.length < pathMax := by
  have hall : ∀ n ∈ allNsTypes, n ≠ [] ∧ 0 ∉ n ∧ comma ∉ n ∧ colon ∉ n ∧
      n.length < pathMax := by
    decide
  exact hall name h

theorem openNamespace_pairItem {pair : Bytes × Bytes} (h : Clean pair) (opens : Bytes → Bool) :
    openNamespace opens (pairItem pair) =
      if opens pair.2 then .ok pair else .error (.failedToOpen pair.2) := by
  obtain ⟨-, -, -, hcolon, hshort⟩ := name_plain h.name
  have htype : (pairItem pair).takeWhile (· ≠ colon) = pair.1 := takeWhile_ne_append hcolon pair.2
  have hlen : pair.1.length ≠ (pairItem pair).length := by
    simp [pairItem]
  have hpath : (pairItem pair).drop (pair.1.length + 1) = pair.2 := by
    have hsplit : pairItem pair = (pair.1 ++ [colon]) ++ pair.2 := by
      simp [pairItem]
    rw [hsplit]
    exact List.drop_left' (by simp)
  have hname : pair.1.take (pathMax - 1) = pair.1 := List.take_of_length_le (by omega)
  have hwhole : pair.2.take (pathMax - 1) = pair.2 :=
    List.take_of_length_le (by have := h.path_lt; omega)
  unfold openNamespace
  simp only [htype, hlen, if_false, hpath, hname, hwhole, h.name, not_true_eq_false]
  cases opens pair.2 <;> simp

def openAll (opens : Bytes → Bool) (pairs : List (Bytes × Bytes)) :
    Except OpenErr (List (Bytes × Bytes)) :=
  match pairs.find? fun pair => !opens pair.2 with
  | some pair => .error (.failedToOpen pair.2)
  | none => .ok pairs

theorem openEach_map_pairItem {pairs : List (Bytes × Bytes)} (h : ∀ pair ∈ pairs, Clean pair)
    (opens : Bytes → Bool) : openEach opens (pairs.map pairItem) = openAll opens pairs := by
  unfold openAll
  induction pairs with
  | nil => rfl
  | cons pair rest ih =>
    have ih' := ih fun p hp => h p (List.mem_cons_of_mem _ hp)
    simp only [List.map_cons, openEach,
      openNamespace_pairItem (h pair List.mem_cons_self), List.find?_cons]
    cases hopens : opens pair.2 with
    | false => simp
    | true =>
      simp only [if_true, Bool.not_true, ih']
      cases rest.find? fun pair => !opens pair.2 <;> rfl

theorem cString_ended {bytes : Bytes} (h : 0 ∉ bytes) : cString (ended bytes) = bytes :=
  takeWhile_ne_append h []

theorem openNamespaces_joined {pairs : List (Bytes × Bytes)} (h : ∀ pair ∈ pairs, Clean pair)
    (opens : Bytes → Bool) :
    openNamespaces opens (ended ([comma].intercalate (pairs.map pairItem))) =
      if pairs = [] then .error .nsPathsEmpty else openAll opens pairs := by
  have hnonempty : ∀ item ∈ pairs.map pairItem, item ≠ [] := by
    intro item hitem
    obtain ⟨pair, -, rfl⟩ := List.mem_map.mp hitem
    simp [pairItem]
  have hcomma : ∀ item ∈ pairs.map pairItem, comma ∉ item := by
    intro item hitem
    obtain ⟨pair, hpair, rfl⟩ := List.mem_map.mp hitem
    obtain ⟨-, -, hname, -⟩ := name_plain (h pair hpair).name
    have hne : comma ≠ colon := by decide
    simp [pairItem, hname, (h pair hpair).path_comma, hne]
  have hzero : 0 ∉ [comma].intercalate (pairs.map pairItem) := by
    intro hmem
    rcases mem_intercalate hmem with hsep | ⟨item, hitem, hin⟩
    · exact absurd hsep (by decide)
    · obtain ⟨pair, hpair, rfl⟩ := List.mem_map.mp hitem
      obtain ⟨-, hname, -⟩ := name_plain (h pair hpair).name
      have hne : (0 : UInt8) ≠ colon := by decide
      simp [pairItem, hname, (h pair hpair).path_zero, hne] at hin
  unfold openNamespaces
  rw [cString_ended hzero, tokens_intercalate hnonempty hcomma, ← openEach_map_pairItem h opens]
  cases pairs with
  | nil => rfl
  | cons pair rest => rfl

section RoundTrip

variable {host : Host} {config : Config} {cloneFlags : Nat} {nsMaps : NsMap}

variable {attrs : List Attr} {e : Endian}

theorem receiveAll_nsPathAttrs
    (h : nsPathAttrs host config nsMaps = .ok attrs) {c : NlConfig} (hnone : c.namespaces = none) :
    (receiveAll e attrs c =
      .ok { c with
        namespaces :=
          (if nsMaps.length > 0 then some (namespacePairs config nsMaps)
          else none).map fun pairs =>
            ended ([comma].intercalate (pairs.map pairItem)) }) ∧
      (nsMaps.length > 0 → ∀ pair ∈ namespacePairs config nsMaps, Clean pair) := by
  have hone : attrCase e nsPathsAttr =
    some (none, fun bytes c => { c with namespaces := some bytes }) := rfl
  unfold nsPathAttrs at h
  by_cases hlen : nsMaps.length > 0
  · rw [if_pos hlen] at h
    cases horder : orderNamespacePaths host config nsMaps with
    | error err => simp [horder] at h
    | ok items =>
      simp only [horder, Except.ok.injEq] at h
      subst h
      obtain ⟨hitems, hclean⟩ := orderFrom_ok (fun _ hns => hns) horder
      refine ⟨?_, fun _ => hclean⟩
      simp [receiveAll, receive_bytemsg hone, hlen, hitems, namespacePairs]
  · rw [if_neg hlen] at h
    cases h
    refine ⟨?_, fun hpos => absurd hpos hlen⟩
    cases c
    simp_all [receiveAll]

theorem receiveAll_attributes (h : attributes host config cloneFlags nsMaps = .ok attrs) :
    receiveAll host.endian attrs {} =
        .ok ((told host config cloneFlags nsMaps).arrives host.endian) ∧
      (nsMaps.length > 0 → ∀ pair ∈ namespacePairs config nsMaps, Clean pair) := by
  unfold attributes at h
  cases hpaths : nsPathAttrs host config nsMaps with
  | error err => simp [hpaths] at h
  | ok paths =>
    simp only [hpaths, Except.ok.injEq] at h
    subst h
    obtain ⟨hreceive, hclean⟩ := receiveAll_nsPathAttrs
      (e := host.endian) hpaths (c := { cloneflags := cloneFlags % 2 ^ 32 }) rfl
    refine ⟨?_, hclean⟩
    have hflag : attrCase host.endian rootlessEUIDAttr =
      some (some 1, fun byte c => { c with isRootlessEuid := host.endian.get byte }) :=
      rfl
    rw [receiveAll, receive_cloneFlags]
    refine receiveAll_append hreceive ?_
    refine receiveAll_append
      (receiveAll_idmapAttrs host config nsMaps ⟨rfl, rfl⟩ ⟨rfl, rfl, rfl⟩) ?_
    refine receiveAll_append (receiveAll_oomAttrs config rfl) ?_
    rw [receiveAll, receive_boolmsg hflag]
    exact receiveAll_timeAttrs config nsMaps rfl

theorem toolAttrs_length (config : Config) (type : Nat) (tool : Option Bytes) :
    (toolAttrs config type tool).length ≤ 1 := by
  unfold toolAttrs
  cases config.rootlessEUID <;> cases tool <;> simp

theorem idmapAttrs_length (host : Host) (config : Config) (nsMaps : NsMap) :
    (idmapAttrs host config nsMaps).length ≤ 5 := by
  have huid := toolAttrs_length config uidmapPathAttr host.newuidmap
  have hgid := toolAttrs_length config gidmapPathAttr host.newgidmap
  have hflag : (if requiresRootOrMappingTool host config then
      [Attr.boolmsg setgroupAttr true] else []).length ≤ 1 := by
    split <;> simp
  have huids : (uidmapAttrs host config).length ≤ 2 := by
    unfold uidmapAttrs
    split
    · simp only [List.length_append, List.length_singleton]
      omega
    · simp
  have hgids : (gidmapAttrs host config).length ≤ 3 := by
    unfold gidmapAttrs
    split
    · simp only [List.length_cons, List.length_append]
      omega
    · simp
  unfold idmapAttrs
  split
  · simp
  · simp only [List.length_append]
    omega

theorem attributes_length (h : attributes host config cloneFlags nsMaps = .ok attrs) :
    attrs.length ≤ 10 := by
  unfold attributes at h
  cases hpaths : nsPathAttrs host config nsMaps with
  | error err => simp [hpaths] at h
  | ok paths =>
    simp only [hpaths, Except.ok.injEq] at h
    subst h
    have hone : paths.length ≤ 1 := by
      unfold nsPathAttrs at hpaths
      split at hpaths
      · cases horder : orderNamespacePaths host config nsMaps <;>
          simp [horder] at hpaths
        simp [← hpaths]
      · cases hpaths
        simp
    have hidmap := idmapAttrs_length host config nsMaps
    have hoom : (oomAttrs config).length ≤ 1 := by
      unfold oomAttrs
      cases config.oomScoreAdj <;> simp
    have htime : (timeAttrs config nsMaps).length ≤ 1 := by
      unfold timeAttrs
      split
      · simp
      · cases config.timeOffsets <;> simp
    simp only [List.length_cons, List.length_append]
    omega

theorem nlParse_bootstrapData {wire : Bytes}
    (h : bootstrapData host config cloneFlags nsMaps = .ok wire) :
    (∀ fuel, wire.length ≤ fuel →
        nlParse fuel host.endian wire =
          .ok ((told host config cloneFlags nsMaps).arrives host.endian,
            wire.length - 16)) ∧
      (nsMaps.length > 0 → ∀ pair ∈ namespacePairs config nsMaps, Clean pair) := by
  unfold bootstrapData at h
  cases hattrs : attributes host config cloneFlags nsMaps with
  | error err => simp [hattrs] at h
  | ok attrs =>
    simp only [hattrs] at h
    obtain ⟨hreceive, hclean⟩ := receiveAll_attributes hattrs
    have hfew := attributes_length hattrs
    refine ⟨fun fuel hfuel => ?_, hclean⟩
    exact nlParse_serializeRequest h (by omega) hreceive hfuel

structure Heard (t : Told) (c : NlConfig) : Prop where
  cloneflags : c.cloneflags = t.cloneflags
  uidmap : c.uidmap = t.uidmap.map ended
  gidmap : c.gidmap = t.gidmap.map ended
  uidmappath : c.uidmappath = t.uidmappath.map ended
  gidmappath : c.gidmappath = t.gidmappath.map ended
  oomScoreAdj : c.oomScoreAdj = t.oomScoreAdj.map ended
  timensoffset : c.timensoffset = t.timensoffset.map ended
  setgroup : c.isSetgroup ≠ 0 ↔ t.setgroup = true
  rootlessEuid : c.isRootlessEuid ≠ 0 ↔ t.rootlessEuid = true
  namespaces : ∀ opens, c.namespaces.map (openNamespaces opens) =
    t.namespaces.map (openAll opens)

theorem flagByte_ne_zero (e : Endian) (value : Bool) :
    flagByte e value ≠ 0 ↔ value = true ∧ e = .little := by
  cases e <;> cases value <;> decide

theorem openAll_ne_nsPathsEmpty (opens : Bytes → Bool) (pairs : List (Bytes × Bytes)) :
    openAll opens pairs ≠ .error .nsPathsEmpty := by
  unfold openAll
  cases pairs.find? fun pair => !opens pair.2 <;> simp

theorem arrives_namespaces_iff {t : Told}
    (hclean : ∀ pairs, t.namespaces = some pairs → ∀ pair ∈ pairs, Clean pair) :
    (∀ opens, (t.arrives e).namespaces.map (openNamespaces opens) =
      t.namespaces.map (openAll opens)) ↔ t.namespaces ≠ some [] := by
  cases hns : t.namespaces with
  | none => simp [Told.arrives, hns]
  | some pairs =>
    have hopen := openNamespaces_joined (hclean pairs hns)
    simp only [Told.arrives, hns, Option.map_some, hopen, Option.some.injEq, ne_eq]
    by_cases hempty : pairs = []
    · simp only [hempty, if_true, not_true_eq_false, iff_false, not_forall]
      exact ⟨fun _ => true, fun heq => openAll_ne_nsPathsEmpty _ _ heq.symm⟩
    · simp [hempty]

theorem arrives_heard_iff {t : Told}
    (hclean : ∀ pairs, t.namespaces = some pairs → ∀ pair ∈ pairs, Clean pair) :
    Heard t (t.arrives e) ↔
      (e = .little ∨ (t.rootlessEuid = false ∧ t.setgroup = false)) ∧
        t.namespaces ≠ some [] := by
  have hnames := arrives_namespaces_iff (e := e) hclean
  have hset : (t.arrives e).isSetgroup ≠ 0 ↔ t.setgroup = true ∧ e = .little := by
    cases hsetgroup : t.setgroup with
    | false => simp [Told.arrives, hsetgroup]
    | true => simpa [Told.arrives, hsetgroup] using flagByte_ne_zero e true
  have hroot := flagByte_ne_zero e t.rootlessEuid
  constructor
  · intro h
    refine ⟨?_, hnames.mp h.namespaces⟩
    cases e with
    | little => exact .inl rfl
    | big =>
      have hset' := h.setgroup
      have hroot' := h.rootlessEuid
      rw [hset] at hset'
      change flagByte .big t.rootlessEuid ≠ 0 ↔ _ at hroot'
      rw [hroot] at hroot'
      right
      constructor
      · simpa using hroot'
      · simpa using hset'
  · rintro ⟨hflags, hns⟩
    refine ⟨rfl, rfl, rfl, rfl, rfl, rfl, rfl, hset.trans ?_, hroot.trans ?_, hnames.mpr hns⟩
    · rcases hflags with rfl | ⟨-, hsetgroup⟩
      · simp
      · simp [hsetgroup]
    · rcases hflags with rfl | ⟨hrootless, -⟩
      · simp
      · simp [hrootless]

theorem told_clean (hclean : nsMaps.length > 0 → ∀ pair ∈ namespacePairs config nsMaps, Clean pair)
    {pairs : List (Bytes × Bytes)}
    (h : (told host config cloneFlags nsMaps).namespaces = some pairs) :
    ∀ pair ∈ pairs, Clean pair := by
  simp only [told] at h
  split at h
  · rename_i hlen
    cases h
    exact hclean hlen
  · cases h

/-- Round trip. -/
theorem bootstrap_roundTrip_iff {wire : Bytes}
    (h : bootstrapData host config cloneFlags nsMaps = .ok wire) :
    (∃ c, (∀ fuel, wire.length ≤ fuel →
        nlParse fuel host.endian wire = .ok (c, wire.length - 16)) ∧
      Heard (told host config cloneFlags nsMaps) c) ↔
    (host.endian = .little ∨
      (config.rootlessEUID = false ∧
        (told host config cloneFlags nsMaps).setgroup = false)) ∧
      (told host config cloneFlags nsMaps).namespaces ≠ some [] := by
  obtain ⟨hparse, hclean⟩ := nlParse_bootstrapData h
  have hheard := arrives_heard_iff (e := host.endian)
    (t := told host config cloneFlags nsMaps) fun pairs hpairs =>
      told_clean hclean hpairs
  constructor
  · rintro ⟨c, hc, hsame⟩
    have heq := (hc wire.length (Nat.le_refl _)).symm.trans (hparse wire.length (Nat.le_refl _))
    simp only [Except.ok.injEq, Prod.mk.injEq, and_true] at heq
    subst heq
    exact hheard.mp hsame
  · intro hcond
    exact ⟨_, hparse, hheard.mpr hcond⟩

def plainHost (e : Endian) : Host where
  endian := e
  lstat p := if p.length < pathMax ∧ 0 ∉ p then none else some "file name too long"
  lstat_ok p h := by
    by_contra hlegal
    rw [if_neg hlegal] at h
    cases h

def joinsNet : Config where
  namespaces := [{ type := .newNet, path := [47, 110] }]
  rootlessEUID := true

theorem bootstrap_roundTrip_joinsNet :
    ∃ wire, bootstrapData (plainHost .little) joinsNet 0 (initNsMaps joinsNet) =
        .ok wire ∧
      ∃ c, (∀ fuel, wire.length ≤ fuel →
          nlParse fuel .little wire = .ok (c, wire.length - 16)) ∧
        Heard (told (plainHost .little) joinsNet 0 (initNsMaps joinsNet)) c := by
  have hsent : bootstrapData (plainHost .little) joinsNet 0 (initNsMaps joinsNet) = .ok _ := rfl
  exact ⟨_, hsent, (bootstrap_roundTrip_iff hsent).mpr ⟨.inl rfl, by decide⟩⟩

theorem rootless_lost :
    ∃ wire c, bootstrapData (plainHost .big) { rootlessEUID := true } 0 [] =
        .ok wire ∧
      (∀ fuel, wire.length ≤ fuel → nlParse fuel .big wire = .ok (c, wire.length - 16)) ∧
      c.isRootlessEuid = 0 := by
  have hsent : bootstrapData (plainHost .big) { rootlessEUID := true } 0 [] = .ok _ := rfl
  exact ⟨_, _, hsent, (nlParse_bootstrapData hsent).1, by decide⟩

end RoundTrip

end Runc.Bootstrap
