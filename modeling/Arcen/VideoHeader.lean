import Arcen.Bytes

/-! The header of a video packet (`shared/protocol/src/wire.rs`): ten bytes, and sixteen more that name the topology
generation and the stream epoch of a region. -/

namespace Arcen

inductive FrameType where
  | videoFull
  | videoPartial
  | videoH264
  | videoH265
  | videoAv1
  | regionVideoFull
  | regionVideoH264
  | regionVideoH265
  | regionVideoAv1
  | audio
  | audioUpstream
  | clipboard
  | hidDeviceAdded
  | hidDeviceRemoved
  | hidReport
  | usbBridgeUrbSubmit
  | usbBridgeUrbCancel
  | usbBridgeUrbComplete
  | cursorUpdate

inductive VideoCodec where
  | jpeg
  | h264
  | h265
  | vp9
  | av1

inductive ChromaSubsampling where
  | yuv420
  | yuv422
  | yuv444

inductive BitDepth where
  | eight
  | ten
  | twelve

inductive ColorMatrix where
  | bt709
  | identity
  | bt601
  | bt2020Ncl

inductive VideoHeaderError where
  | shortHeader
  | unknownFrameType (value : UInt8)
  | unknownVideoCodec (value : UInt8)
  | unknownChroma (value : UInt8)
  | unknownBitDepth (value : UInt8)
  | unknownColorMatrix (value : UInt8)
  | legacyVideoMonitorId
  | regionVideoMonitorId
  | regionTopologyGeneration
  | regionStreamEpoch

namespace FrameType

def tryFrom (value : UInt8) : Except VideoHeaderError FrameType :=
  match value with
  | 0x01 => .ok .videoFull
  | 0x02 => .ok .videoPartial
  | 0x03 => .ok .videoH264
  | 0x04 => .ok .videoH265
  | 0x05 => .ok .videoAv1
  | 0x06 => .ok .regionVideoFull
  | 0x07 => .ok .regionVideoH264
  | 0x08 => .ok .regionVideoH265
  | 0x09 => .ok .regionVideoAv1
  | 0x10 => .ok .audio
  | 0x11 => .ok .audioUpstream
  | 0x20 => .ok .clipboard
  | 0x30 => .ok .hidDeviceAdded
  | 0x31 => .ok .hidDeviceRemoved
  | 0x32 => .ok .hidReport
  | 0x40 => .ok .usbBridgeUrbSubmit
  | 0x41 => .ok .usbBridgeUrbCancel
  | 0x42 => .ok .usbBridgeUrbComplete
  | 0x50 => .ok .cursorUpdate
  | other => .error (.unknownFrameType other)

def isRegionVideo : FrameType → Bool
  | .regionVideoFull | .regionVideoH264 | .regionVideoH265 | .regionVideoAv1 => true
  | _ => false

def isLegacyVideo : FrameType → Bool
  | .videoFull | .videoPartial | .videoH264 | .videoH265 | .videoAv1 => true
  | _ => false

end FrameType

def VideoCodec.tryFrom (value : UInt8) : Except VideoHeaderError VideoCodec :=
  match value with
  | 0x00 => .ok .jpeg
  | 0x01 => .ok .h264
  | 0x02 => .ok .h265
  | 0x03 => .ok .vp9
  | 0x04 => .ok .av1
  | other => .error (.unknownVideoCodec other)

def ChromaSubsampling.tryFrom (value : UInt8) : Except VideoHeaderError ChromaSubsampling :=
  match value with
  | 0x00 => .ok .yuv420
  | 0x01 => .ok .yuv422
  | 0x02 => .ok .yuv444
  | other => .error (.unknownChroma other)

/-- `timestampMs` is the wire clock; the last two fields are zero for a frame that belongs to no region. -/
structure VideoHeader where
  frameType : FrameType
  codec : VideoCodec
  chroma : ChromaSubsampling
  flags : UInt8
  timestampMs : UInt32
  monitorId : UInt16
  topologyGeneration : UInt64
  streamEpoch : UInt64

def videoHeaderSize : Nat := 10

def regionVideoHeaderSize : Nat := 26

def videoKeyframeFlag : UInt8 := 0x01

namespace VideoHeader

variable (header : VideoHeader)

/-- Whether the packet starts or carries a complete decoder reference frame. -/
def isKeyframe : Bool :=
  header.flags &&& videoKeyframeFlag != 0 || match header.frameType with
    | .videoFull | .regionVideoFull => true
    | _ => false

def bitDepth : Except VideoHeaderError BitDepth :=
  match (header.flags &&& 0x06) >>> 1 with
  | 0x00 => .ok .eight
  | 0x01 => .ok .ten
  | 0x02 => .ok .twelve
  | other => .error (.unknownBitDepth other)

/-- Matrix coefficients, bits 4 to 6 of the flags. -/
def colorMatrix : Except VideoHeaderError ColorMatrix :=
  match (header.flags &&& 0x70) >>> 4 with
  | 0x00 => .ok .bt709
  | 0x01 => .ok .identity
  | 0x02 => .ok .bt601
  | 0x03 => .ok .bt2020Ncl
  | other => .error (.unknownColorMatrix other)

end VideoHeader

/-- The topology generation and stream epoch of a frame, with the checks on its monitor. -/
def decodeVideoRegion (data : List UInt8) (frameType : FrameType) (monitorId : UInt16) :
    Except VideoHeaderError (UInt64 × UInt64) :=
  if frameType.isRegionVideo then
    if data.length < regionVideoHeaderSize then .error .shortHeader
    else if monitorId = 0 then .error .regionVideoMonitorId
    else
      let topologyGeneration := u64FromBeBytes (slice data 10 18)
      if topologyGeneration = 0 then .error .regionTopologyGeneration
      else
        let streamEpoch := u64FromBeBytes (slice data 18 26)
        if streamEpoch = 0 then .error .regionStreamEpoch else .ok (topologyGeneration, streamEpoch)
  else if frameType.isLegacyVideo && monitorId != 0 then .error .legacyVideoMonitorId
  else .ok (0, 0)

def decodeVideoHeader (data : List UInt8) : Except VideoHeaderError VideoHeader :=
  if data.length < videoHeaderSize then .error .shortHeader
  else do
    let frameType ← FrameType.tryFrom (byteAt data 0)
    let monitorId := u16FromBeBytes (slice data 8 10)
    let (topologyGeneration, streamEpoch) ← decodeVideoRegion data frameType monitorId
    let codec ← VideoCodec.tryFrom (byteAt data 1)
    let chroma ← ChromaSubsampling.tryFrom (byteAt data 2)
    let header : VideoHeader :=
      { frameType
        codec
        chroma
        flags := byteAt data 3
        timestampMs := u32FromBeBytes (slice data 4 8)
        monitorId
        topologyGeneration
        streamEpoch }
    let _ ← header.bitDepth
    let _ ← header.colorMatrix
    return header

end Arcen
