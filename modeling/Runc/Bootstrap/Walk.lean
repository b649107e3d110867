import Runc.Bootstrap.Parse

/-!
# Walking over the attributes

The loop of `nl_parse` walks over the attributes that `bootstrapData` has put
one behind the other: each turn reads one of them and stops where the next one
begins.
-/

namespace Runc.Bootstrap

open Lib

section Attributes

variable {e : Endian}

def Attr.type : Attr → Nat
  | .int32msg type _ => type
  | .bytemsg type _ => type
  | .boolmsg type _ => type

def Attr.payload (e : Endian) : Attr → Bytes
  | .int32msg _ value => e.put 4 value
  | .bytemsg _ value => value ++ [0]
  | .boolmsg _ value => e.put 4 (if value then 1 else 0)

variable {attr : Attr}

theorem Attr.serialize_layout {bytes : Bytes} (h : attr.serialize e = .ok bytes) :
    ∃ pad : Bytes,
      bytes = e.put 2 (4 + (attr.payload e).length) ++
        (e.put 2 attr.type ++ (attr.payload e ++ pad)) ∧
      4 + (attr.payload e).length ≤ 65535 ∧
      (attr.payload e).length + pad.length = nlaAlign (attr.payload e).length := by
  cases attr with
  | int32msg type value =>
    cases h
    exact ⟨[], by simp [payload, Attr.type, nlaHdrlen], by simp [payload],
      by simp [payload, nlaAlign]⟩
  | boolmsg type value =>
    cases h
    exact ⟨[], by simp [payload, Attr.type, nlaHdrlen], by simp [payload],
      by simp [payload, nlaAlign]⟩
  | bytemsg type value =>
    simp only [serialize] at h
    split at h
    · cases h
    · rename_i hlen
      cases h
      simp only [nlaHdrlen] at hlen
      have hpad : nlaAlign (nlaHdrlen + value.length + 1) - nlaHdrlen -
          value.length = 1 + (nlaAlign (value.length + 1) - (value.length + 1)) := by
        simp only [nlaAlign, nlaHdrlen]
        omega
      refine ⟨List.replicate (nlaAlign (value.length + 1) - (value.length + 1)) 0, ?_, ?_, ?_⟩
      · rw [hpad, List.replicate_add]
        simp [payload, Attr.type, nlaHdrlen, Nat.add_assoc]
      · simp only [payload, List.length_append, List.length_singleton]
        omega
      · simp only [payload, List.length_append, List.length_singleton,
          List.length_replicate, nlaAlign]
        omega

def Attr.receive (e : Endian) (attr : Attr) (config : NlConfig) : Except ParseErr NlConfig :=
  handleAttr e (attr.payload e) 0 attr.type (attr.payload e).length config

variable {config config' : NlConfig}

theorem Attr.receive_inside (h : attr.receive e config = .ok config') (front back : Bytes) :
    handleAttr e (front ++ (attr.payload e ++ back)) front.length attr.type
      (attr.payload e).length config = .ok config' := by
  unfold receive handleAttr at h
  unfold handleAttr
  cases hcase : attrCase e attr.type with
  | none =>
    rw [hcase] at h
    cases h
  | some entry =>
    obtain ⟨width, store⟩ := entry
    rw [hcase] at h
    cases hslice : slice (attr.payload e) 0 (width.getD (attr.payload e).length) with
    | none =>
      simp only [hslice] at h
      cases h
    | some bytes =>
      simp only [hslice] at h
      simp only [slice_inside hslice]
      exact h

theorem attrCase_lt {type : Nat} {entry : Option Nat × (Bytes → NlConfig → NlConfig)}
    (h : attrCase e type = some entry) : type < 65536 := by
  have hknown : type ∈ [cloneFlagsAttr, rootlessEUIDAttr, oomScoreAdjAttr,
      nsPathsAttr, uidmapAttr, gidmapAttr, uidmapPathAttr, gidmapPathAttr,
      setgroupAttr, timeOffsetsAttr] := by
    by_contra hmem
    simp only [List.mem_cons, List.not_mem_nil, not_or] at hmem
    simp [attrCase, hmem] at h
  have hall : ∀ n ∈ [cloneFlagsAttr, rootlessEUIDAttr, oomScoreAdjAttr,
      nsPathsAttr, uidmapAttr, gidmapAttr, uidmapPathAttr, gidmapPathAttr,
      setgroupAttr, timeOffsetsAttr], n < 65536 := by
    decide
  exact hall type hknown

theorem Attr.type_lt_of_receive (h : attr.receive e config = .ok config') : attr.type < 65536 := by
  unfold receive handleAttr at h
  cases hcase : attrCase e attr.type with
  | none =>
    rw [hcase] at h
    cases h
  | some entry => exact attrCase_lt hcase

theorem nlLoop_attr {bytes : Bytes} (hserialize : attr.serialize e = .ok bytes)
    (hreceive : attr.receive e config = .ok config') (front back : Bytes) (fuel : Nat) :
    nlLoop e (front ++ (bytes ++ back)) (fuel + 1) front.length config =
      nlLoop e (front ++ (bytes ++ back)) fuel (front ++ bytes).length config' := by
  obtain ⟨pad, hbytes, hlen, halign⟩ := Attr.serialize_layout hserialize
  have htype := Attr.type_lt_of_receive hreceive
  have hdata : front ++ (bytes ++ back) = front ++ (e.put 2 (4 + (attr.payload e).length) ++
        (e.put 2 attr.type ++ (attr.payload e ++ (pad ++ back)))) := by
    simp [hbytes]
  have hlt : front.length < (front ++ (bytes ++ back)).length := by
    rw [hdata]
    simp only [List.length_append, Endian.put_length]
    omega
  have hfirst : slice (front ++ (bytes ++ back)) front.length 2 =
      some (e.put 2 (4 + (attr.payload e).length)) := by
    rw [hdata]
    exact slice_append front _ rfl (by simp)
  have hsecond : slice (front ++ (bytes ++ back)) (front.length + 2) 2 =
      some (e.put 2 attr.type) := by
    rw [hdata, ← List.append_assoc]
    exact slice_append _ _ (by simp) (by simp)
  have hget : e.get (e.put 2 (4 + (attr.payload e).length)) = 4 + (attr.payload e).length :=
    e.get_put_of_lt (by omega)
  have hpayload : (4 + (attr.payload e).length + sizeMod - nlaHdrlen) % sizeMod =
      (attr.payload e).length := by
    simp only [sizeMod, nlaHdrlen]
    omega
  have hhandle : handleAttr e (front ++ (bytes ++ back)) (front.length + nlaHdrlen)
      attr.type (attr.payload e).length config = .ok config' := by
    have hinside := Attr.receive_inside hreceive
      (front ++ (e.put 2 (4 + (attr.payload e).length) ++ e.put 2 attr.type))
      (pad ++ back)
    rw [hdata]
    simpa [nlaHdrlen] using hinside
  have hnext : front.length + nlaHdrlen +
      ((attr.payload e).length + 3) % sizeMod / 4 * 4 = (front ++ bytes).length := by
    have hpad : (attr.payload e).length + pad.length =
        ((attr.payload e).length + 3) / 4 * 4 := halign
    rw [hbytes]
    simp only [List.length_append, Endian.put_length, nlaHdrlen, sizeMod]
    omega
  rw [nlLoop, if_pos hlt, hfirst, hsecond]
  simp only [hget, e.get_put_of_lt (show attr.type < 256 ^ 2 by omega), hpayload, hhandle, hnext]

end Attributes

section Lists

variable {e : Endian}

def receiveAll (e : Endian) : List Attr → NlConfig → Except ParseErr NlConfig
  | [], config => .ok config
  | attr :: rest, config =>
      match attr.receive e config with
      | .error err => .error err
      | .ok config' => receiveAll e rest config'

variable {bytes : Bytes}

theorem serializeAll_cons {attr : Attr} {rest : List Attr}
    (h : serializeAll e (attr :: rest) = .ok bytes) :
    ∃ first more, attr.serialize e = .ok first ∧ serializeAll e rest = .ok more ∧
      bytes = first ++ more := by
  simp only [serializeAll] at h
  cases hone : attr.serialize e with
  | error err => simp [hone] at h
  | ok first =>
    cases hmore : serializeAll e rest with
    | error err => simp [hone, hmore] at h
    | ok more =>
      simp only [hone, hmore, Except.ok.injEq] at h
      exact ⟨first, more, rfl, rfl, h.symm⟩

variable {config config' : NlConfig}

theorem receiveAll_cons {attr : Attr} {rest : List Attr}
    (h : receiveAll e (attr :: rest) config = .ok config') :
    ∃ middle, attr.receive e config = .ok middle ∧
      receiveAll e rest middle = .ok config' := by
  simp only [receiveAll] at h
  cases hone : attr.receive e config with
  | error err => simp [hone] at h
  | ok middle =>
    simp only [hone] at h
    exact ⟨middle, rfl, h⟩

theorem nlLoop_serializeAll {attrs : List Attr} (hserialize : serializeAll e attrs = .ok bytes)
    (hreceive : receiveAll e attrs config = .ok config') (front : Bytes) {fuel : Nat}
    (hfuel : attrs.length < fuel) :
    nlLoop e (front ++ bytes) fuel front.length config =
      .ok (config', (front ++ bytes).length) := by
  induction attrs generalizing bytes config front fuel with
  | nil =>
    cases hserialize
    cases hreceive
    obtain ⟨fuel, rfl⟩ : ∃ k, fuel = k + 1 := ⟨fuel - 1, by omega⟩
    simp [nlLoop]
  | cons attr rest ih =>
    obtain ⟨fuel, rfl⟩ : ∃ k, fuel = k + 1 := ⟨fuel - 1, by omega⟩
    obtain ⟨first, more, hone, hmore, rfl⟩ := serializeAll_cons hserialize
    obtain ⟨middle, hconfig, hlater⟩ := receiveAll_cons hreceive
    have hfuel' : rest.length < fuel := by
      simp only [List.length_cons] at hfuel
      omega
    have hrest := ih hmore hlater (front ++ first) hfuel'
    rw [nlLoop_attr hone hconfig]
    rw [List.append_assoc] at hrest
    exact hrest

theorem receiveAll_append {first second : List Attr} {middle : NlConfig}
    (hfirst : receiveAll e first config = .ok middle)
    (hsecond : receiveAll e second middle = .ok config') :
    receiveAll e (first ++ second) config = .ok config' := by
  induction first generalizing config with
  | nil =>
    cases hfirst
    exact hsecond
  | cons attr rest ih =>
    obtain ⟨next, hone, hlater⟩ := receiveAll_cons hfirst
    simp only [List.cons_append, receiveAll, hone]
    exact ih hlater

theorem serializeAll_length {attrs : List Attr} (h : serializeAll e attrs = .ok bytes) :
    4 * attrs.length ≤ bytes.length ∧ bytes.length ≤ 65540 * attrs.length := by
  induction attrs generalizing bytes with
  | nil =>
    cases h
    simp
  | cons attr rest ih =>
    obtain ⟨first, more, hone, hmore, rfl⟩ := serializeAll_cons h
    obtain ⟨pad, hbytes, hlen, halign⟩ := Attr.serialize_layout hone
    have hrest := ih hmore
    have hfirst : first.length = 4 + ((attr.payload e).length + pad.length) := by
      rw [hbytes]
      simp only [List.length_append, Endian.put_length]
      omega
    simp only [nlaAlign] at halign
    simp only [List.length_append, List.length_cons]
    omega

end Lists

section Request

variable {host : Host}

theorem requestHeader_length (host : Host) (length : Nat) :
    (requestHeader host length).length = 16 := by
  simp [requestHeader]

theorem requestHeader_size {length : Nat} (h : length < 2 ^ 32) :
    host.endian.get ((requestHeader host length).take 4) = length := by
  have htake : (requestHeader host length).take 4 = host.endian.put 4 length :=
    List.take_left' (by simp)
  rw [htake]
  exact host.endian.get_put_of_lt (by omega)

theorem requestHeader_type (length : Nat) :
    host.endian.get (((requestHeader host length).drop 4).take 2) = initMsg := by
  have hdrop : (requestHeader host length).drop 4 = host.endian.put 2 initMsg ++
        (host.endian.put 2 1 ++ (host.endian.put 4 host.seq ++ host.endian.put 4 0)) :=
    List.drop_left' (by simp)
  rw [hdrop, List.take_left' (by simp)]
  exact host.endian.get_put_of_lt (by decide)

theorem nlParse_serializeRequest {attrs : List Attr} {wire : Bytes}
    (hwire : serializeRequest host attrs = .ok wire) (hfew : attrs.length ≤ 100) {config : NlConfig}
    (hreceive : receiveAll host.endian attrs {} = .ok config) {fuel : Nat}
    (hfuel : wire.length ≤ fuel) :
    nlParse fuel host.endian wire = .ok (config, wire.length - 16) := by
  unfold serializeRequest at hwire
  cases hdata : serializeAll host.endian attrs with
  | error err => simp [hdata] at hwire
  | ok data =>
    simp only [hdata, Except.ok.injEq] at hwire
    subst hwire
    have hbounds := serializeAll_length hdata
    have hheader := requestHeader_length host (16 + data.length)
    have hhdr : slice (requestHeader host (16 + data.length) ++ data) 0 16 =
        some (requestHeader host (16 + data.length)) :=
      slice_append [] data rfl hheader.symm
    have hsize : (16 + data.length + 2 ^ 32 - 16) % 2 ^ 32 = data.length := by
      omega
    have hpayload : slice (requestHeader host (16 + data.length) ++ data) 16
        data.length = some data := by
      have happend := slice_append (requestHeader host (16 + data.length))
        [] hheader.symm (rfl : data.length = data.length)
      simpa using happend
    have hlength : (requestHeader host (16 + data.length) ++ data).length - 16 =
        data.length := by
      simp only [List.length_append, hheader]
      omega
    have hturns : attrs.length < fuel := by
      simp only [List.length_append, hheader] at hfuel
      omega
    have hloop := nlLoop_serializeAll hdata hreceive [] hturns
    unfold nlParse
    simp only [hhdr, requestHeader_type, requestHeader_size
      (show 16 + data.length < 2 ^ 32 by omega), hsize, hpayload, hlength]
    simpa [initMsg] using hloop

end Request

end Runc.Bootstrap
